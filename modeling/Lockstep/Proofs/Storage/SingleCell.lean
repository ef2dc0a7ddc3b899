import Lockstep.Proofs.Storage.ClearedHandles
import Lockstep.Storage.Reach

/-!
# Setting a component

A component that is set changes one cell of one table and nothing else.  Entities notice
only when the cell is the one that names the owner of the row: then the row is no longer that
of the old owner, and nobody else's unless the new owner's slot has been naming it.
-/

namespace Lockstep

namespace Table

variable {t t' : Table} {col row : Nat} {value : Value}

theorem wrote_of_write (h : t.write col row value = .ok t') : t.Wrote col row value t' := by
  obtain ⟨column, hcolumn, hholds, hrow, -⟩ := write_cases h
  obtain ⟨t'', hwrite, hwrote⟩ := write_ok hcolumn hholds hrow
  obtain rfl := Except.ok.inj (h.symm.trans hwrite)
  exact hwrote

theorem sameShape_setColumn {column column' : Column} (h : t.columns[col]? = some column)
    (hshape : column.SameShape column') : t.SameShape (t.setColumn col column') := by
  refine ⟨rfl, fun i old hold => ?_⟩
  obtain ⟨hlt, -⟩ := Array.getElem?_eq_some_iff.1 h
  by_cases hi : i = col
  · subst hi
    obtain rfl := Option.some.inj (h.symm.trans hold)
    exact ⟨column', by simp [setColumn, hlt], hshape⟩
  · exact ⟨old, by simp [setColumn, Ne.symm hi, hold], rfl, rfl⟩

theorem sameShape_of_commit {rows : Nat} (h : t.commit col rows = .ok (some t')) :
    t.SameShape t' ∧ t'.numRows = t.numRows := by
  unfold commit column at h
  cases hcolumn : t.columns[col]? with
  | none => simp [hcolumn, bind, Except.bind] at h
  | some column =>
      obtain ⟨committedRows, hcommit⟩ := column.commit_eq rows
      obtain ⟨column', hcolumn', rfl⟩ : ∃ column', column.commit? rows = some column' ∧
          t.setColumn col column' = t' := by
        simpa [hcolumn, bind, Except.bind, pure, Except.pure] using h
      rw [hcolumn', Option.getD_some] at hcommit
      exact ⟨sameShape_setColumn hcolumn (hcommit ▸ ⟨rfl, rfl⟩), rfl⟩

end Table

namespace StorageView

variable {v : StorageView} {f : Entity} {location location' : EntityLocation} {c : ComponentId}
  {bytes : List UInt8}

theorem located_write_of_ne (h : location' ≠ location ∨ c ≠ .entity) :
    (v.write location c bytes).Located f location' ↔ v.Located f location' := by
  have hcell : (v.write location c bytes).cells location' .entity = v.cells location' .entity :=
    cells_write_ne (h.imp_right Ne.symm)
  constructor
  · rintro ⟨hslot, hrow, howner⟩
    exact ⟨hslot, hrow, hcell ▸ howner⟩
  · rintro ⟨hslot, hrow, howner⟩
    exact ⟨hslot, hrow, hcell ▸ howner⟩

theorem located_write_owner : (v.write location .entity bytes).Located f location ↔
    v.slots f.index = ⟨f.generation, .live (some location)⟩ ∧
      location.row < v.rows location.archetype ∧ Entity.ofBytes bytes = f := by
  have hcell : ((v.write location .entity bytes).cells location .entity).map Entity.ofBytes =
      some (Entity.ofBytes bytes) := by rw [cells_write_self, Option.map_some]
  constructor
  · rintro ⟨hslot, hrow, howner⟩
    exact ⟨hslot, hrow, Option.some.inj (hcell.symm.trans howner)⟩
  · rintro ⟨hslot, hrow, rfl⟩
    exact ⟨hslot, hrow, hcell⟩

end StorageView

namespace Storage

variable {config : StateConfig} {s s' : Storage} {e f : Entity} {location : EntityLocation}
  {archetype : Archetype} {c c' : ComponentId} {col : Nat} {info layout : TypeInfo}

theorem Reachable.wellFormed (h : s.Reachable config) : s.WellFormed := by
  induction h with
  | new h => exact (wellFormed_of_new h).1
  | call _ call ih => exact (simulates ih call).wellFormed
  | write _ ha hwrite ih =>
      have harchetype := archetype_eq_ok.1 ha
      have hwrote := Table.wrote_of_write hwrite
      refine ih.setTable harchetype hwrote.shape ?_
      rw [hwrote.numRows, hwrote.shape.maxRows]
      exact (ih.archetypes _ _ harchetype).numRows_le
  | commit _ ha hcommit ih =>
      have harchetype := archetype_eq_ok.1 ha
      obtain ⟨hshape, hrows⟩ := Table.sameShape_of_commit hcommit
      refine ih.setTable harchetype hshape ?_
      rw [hrows, hshape.maxRows]
      exact (ih.archetypes _ _ harchetype).numRows_le

theorem entityLocation_congr (hs : s.WellFormed) (hs' : s'.WellFormed)
    (h : ∀ location, s'.view.Located f location ↔ s.view.Located f location) :
    s'.entityLocation f = s.entityLocation f := by
  apply Option.ext
  intro location
  rw [entityLocation_eq_some hs', entityLocation_eq_some hs, h]

theorem getComponent_missing (hlocation : s.entityLocation f = some location)
    (h : s.archetypes[location.archetype.index]? = some archetype)
    (hcol : archetype.columnIndex c = none) :
    s.getComponent f c info = .error (.missingComponent f c) := by
  simp [getComponent, locateComponent, hlocation, archetype_eq_ok.2 h, hcol, bind, Except.bind]

theorem getComponent_mismatch (hs : s.WellFormed) (hlocation : s.entityLocation f = some location)
    (h : s.archetypes[location.archetype.index]? = some archetype)
    (hcol : archetype.columnIndex c = some col) (hlayout : s.registry.info? c = some layout)
    (hfits : ¬ info.Fits layout) :
    s.getComponent f c info = .error (.componentTypeMismatch c) := by
  obtain ⟨column, hcolumn, hinfo, -⟩ := (hs.archetypes _ _ h).column c col hcol
  obtain rfl := Option.some.inj (hlayout.symm.trans hinfo)
  have hholds : column.holds info = false := by
    rwa [← Bool.not_eq_true, Column.holds_iff]
  have htyped : archetype.table.typedColumn col info = .error .layoutMismatch := by
    simp [Table.typedColumn, Table.column, hcolumn, hholds, bind, Except.bind, throw, throwThe,
      MonadExceptOf.throw]
  simp [getComponent, locateComponent, hlocation, archetype_eq_ok.2 h, hcol, htyped, bind,
    Except.bind]

/-- What is read of an entity depends on its place and on the cell there. -/
theorem getComponent_congr (hs : s.WellFormed) (hs' : s'.WellFormed)
    (hregistry : s'.registry = s.registry) (hlocation : s'.entityLocation f = s.entityLocation f)
    (hcell : ∀ location, s.entityLocation f = some location →
      s'.view.cells location c = s.view.cells location c) (info : TypeInfo) :
    s'.getComponent f c info = s.getComponent f c info := by
  cases hfound : s.entityLocation f with
  | none =>
      rw [getComponent, getComponent, locateComponent_stale hfound,
        locateComponent_stale (hlocation.trans hfound)]
  | some location =>
      have hfound' := hlocation.trans hfound
      have hlocated := (entityLocation_eq_some hs).1 hfound
      have hlocated' := (entityLocation_eq_some hs').1 hfound'
      obtain ⟨archetype, h, -⟩ := exists_of_row_lt hlocated.row_lt
      obtain ⟨archetype', h', -⟩ := exists_of_row_lt hlocated'.row_lt
      have hsame := hcell location hfound
      -- Since the cells agree, the component has a column in both storages or in neither.
      have hboth := hsame
      rw [cells_view h, cells_view h'] at hboth
      cases hcol : archetype.columnIndex c with
      | none =>
          rw [hcol, Option.map_none, Option.map_eq_none_iff] at hboth
          rw [getComponent_missing hfound h hcol, getComponent_missing hfound' h' hboth]
      | some col =>
          rw [hcol, Option.map_some, Option.map_eq_some_iff] at hboth
          obtain ⟨col', hcol', -⟩ := hboth
          obtain ⟨column, -, hlayout, -⟩ := (hs.archetypes _ _ h).column c col hcol
          have hlayout' := hregistry ▸ hlayout
          by_cases hfits : info.Fits column.info
          · obtain ⟨value, hget, hinfo, hbytes⟩ := getComponent_ok hs hlocated h hcol hlayout hfits
            obtain ⟨value', hget', hinfo', hbytes'⟩ :=
              getComponent_ok hs' hlocated' h' hcol' hlayout' hfits
            rw [hget, hget']
            refine congrArg Except.ok (Value.eq_of_bytes value (hinfo'.trans hinfo.symm) ?_)
            exact Option.some.inj (hbytes'.symm.trans (hsame.trans hbytes))
          · rw [getComponent_mismatch hs hfound h hcol hlayout hfits,
              getComponent_mismatch hs' hfound' h' hcol' hlayout' hfits]

/-! ## One cell is written -/

/-- A value was written into the cell of a located entity. -/
structure Assigned (s : Storage) (e : Entity) (location : EntityLocation) (c : ComponentId)
    (value : Value) (s' : Storage) : Prop where
  before : s.WellFormed
  after : s'.WellFormed
  registry : s'.registry = s.registry
  located : s.view.Located e location
  view : s'.view = s.view.write location c value.bytes

namespace Assigned

section Cells

variable {value : Value} (h : s.Assigned e location c value s')
include h

/-- The cell of another entity, or of another component, is another one. -/
theorem cell (hother : f ≠ e ∨ c' ≠ c) {place : EntityLocation}
    (hplace : s.entityLocation f = some place) :
    s'.view.cells place c' = s.view.cells place c' := by
  rw [h.view]
  apply StorageView.cells_write_ne
  refine hother.imp_left fun hne => ?_
  rintro rfl
  exact hne (((entityLocation_eq_some h.before).1 hplace).entity_unique h.located)

theorem getComponent_other (hother : f ≠ e ∨ c' ≠ c)
    (hlocation : s'.entityLocation f = s.entityLocation f) (info : TypeInfo) :
    s'.getComponent f c' info = s.getComponent f c' info :=
  getComponent_congr h.before h.after h.registry hlocation (fun _ => h.cell hother) info

/-- As long as the row keeps its owner, all entities stay where they are. -/
theorem located_iff (howner : c ≠ .entity ∨ Entity.ofBytes value.bytes = e)
    (place : EntityLocation) : s'.view.Located f place ↔ s.view.Located f place := by
  rw [h.view]
  by_cases hapart : place ≠ location ∨ c ≠ .entity
  · exact StorageView.located_write_of_ne hapart
  · obtain ⟨rfl, rfl⟩ : place = location ∧ c = .entity := by simpa using hapart
    obtain rfl := howner.resolve_left (not_not_intro rfl)
    rw [StorageView.located_write_owner]
    constructor
    · rintro ⟨hslot, hrow, rfl⟩
      exact ⟨hslot, hrow, h.located.owner⟩
    · rintro ⟨hslot, hrow, howner⟩
      exact ⟨hslot, hrow, Option.some.inj (h.located.owner.symm.trans howner)⟩

theorem entityLocation_eq (howner : c ≠ .entity ∨ Entity.ofBytes value.bytes = e) (f : Entity) :
    s'.entityLocation f = s.entityLocation f :=
  entityLocation_congr h.before h.after (h.located_iff howner)

end Cells

section Owners

variable {value : Value} {owner : Entity} (h : s.Assigned e location .entity value s')
  (howner : Entity.ofBytes value.bytes = owner)
include h howner

/-- Only an entity whose slot names the row is located there, and it has to be the new
owner. -/
theorem located_iff_of_owner (place : EntityLocation) : s'.view.Located f place ↔
    if place = location then f = owner ∧ s.entities.location? owner = some location
    else s.view.Located f place := by
  rw [h.view]
  split
  · rename_i hplace
    subst hplace
    rw [StorageView.located_write_owner, howner, EntityStore.location?_eq_some]
    constructor
    · rintro ⟨hslot, -, rfl⟩
      exact ⟨rfl, hslot⟩
    · rintro ⟨rfl, hslot⟩
      exact ⟨hslot, h.located.row_lt, rfl⟩
  · rename_i hplace
    exact StorageView.located_write_of_ne (.inl hplace)

theorem refuses (hne : owner ≠ e) : s'.Refuses e := by
  refine refuses_of_not_located h.after fun place hplace => ?_
  rw [h.located_iff_of_owner howner] at hplace
  split at hplace
  · exact hne hplace.1.symm
  · rename_i hapart
    exact hapart (hplace.location_unique h.located)

theorem entityLocation_owner (hslot : s.entities.location? owner = some location) :
    s'.entityLocation owner = some location := by
  rw [entityLocation_eq_some h.after, h.located_iff_of_owner howner, if_pos rfl]
  exact ⟨rfl, hslot⟩

theorem entityLocation_other (hne : f ≠ e)
    (hother : f ≠ owner ∨ s.entities.location? owner ≠ some location) :
    s'.entityLocation f = s.entityLocation f := by
  refine entityLocation_congr h.before h.after fun place => ?_
  rw [h.located_iff_of_owner howner]
  split
  · rename_i hplace
    subst hplace
    refine iff_of_false ?_ fun hlocated => hne (hlocated.entity_unique h.located)
    rintro ⟨rfl, hslot⟩
    exact hother.elim (· rfl) (· hslot)
  · rfl

end Owners
end Assigned

namespace Owners

def cleared : Storage :=
  Cleared.start.after [.registerArchetype [], .makeEntity ⟨0⟩ ⟨0⟩, .clearTemporaries ⟨0⟩]

/-- Two entities have been made in one row, one before a clear and one after it. -/
def storage : Storage := (cleared.perform (.makeEntity ⟨0⟩ ⟨0⟩)).2

theorem reachable_cleared : cleared.Reachable Cleared.config :=
  (((Reachable.new Cleared.start_eq).call _).call _).call _

theorem reachable : storage.Reachable Cleared.config := reachable_cleared.call _

theorem storage_eq : cleared.perform (.makeEntity ⟨0⟩ ⟨0⟩) = (.entity ⟨1, 0⟩, storage) :=
  Prod.ext (by decide +kernel) rfl

theorem location_eq : storage.entityLocation ⟨1, 0⟩ = some ⟨⟨0⟩, 0⟩ := by
  have hrows : cleared.view.rows ⟨0⟩ = 0 := by decide +kernel
  rw [entityLocation_of_made reachable_cleared.wellFormed storage_eq, hrows]

theorem location_former : storage.entities.location? ⟨0, 0⟩ = some ⟨⟨0⟩, 0⟩ := by decide +kernel

end Owners

end Storage
end Lockstep
