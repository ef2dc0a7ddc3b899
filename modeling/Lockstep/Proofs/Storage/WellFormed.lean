import Lockstep.Proofs.Storage.Change

/-!
# Well-formed storages

In a well-formed storage each component of an archetype has a column of its registered
layout with room for all rows of the table.  Lookups of entities and components then depend
on the view of the storage only.
-/

namespace Lockstep

theorem ArchetypeId.index_inj {a b : ArchetypeId} (h : a.index = b.index) : a = b :=
  congrArg ArchetypeId.mk (UInt32.toNat_inj.1 h)

/-- A layout that typed access may use for a column of another layout. -/
def TypeInfo.Fits (info layout : TypeInfo) : Prop :=
  info.numBytes = layout.numBytes ∧ info.alignment ≤ layout.alignment

theorem TypeInfo.fits_self (info : TypeInfo) : info.Fits info := ⟨rfl, UInt32.le_refl _⟩

theorem Column.holds_iff {column : Column} {info : TypeInfo} :
    column.holds info = true ↔ info.Fits column.info := by
  simp [holds, TypeInfo.Fits]

namespace Archetype

variable {archetype : Archetype} {registry : ComponentRegistry} {c c' : ComponentId} {col : Nat}

theorem columnIndex_entity : archetype.columnIndex .entity = some entityColumn := if_pos rfl

theorem columnIndex_worldId : archetype.columnIndex .worldId = some worldIdColumn := rfl

/-- A column belongs to the built-in component of its place, or to a component that was
given to the archetype. -/
theorem columnIndex_cases (h : archetype.columnIndex c = some col) :
    (c = .entity ∧ col = entityColumn) ∨ (c = .worldId ∧ col = worldIdColumn) ∨
      ∃ i, archetype.userComponents[i]? = some c ∧ col = userColumn + i := by
  unfold columnIndex at h
  split at h
  · rename_i hc
    exact .inl ⟨hc, (Option.some.inj h).symm⟩
  · split at h
    · rename_i hc
      exact .inr (.inl ⟨hc, (Option.some.inj h).symm⟩)
    · obtain ⟨i, hi, rfl⟩ := Option.map_eq_some_iff.1 h
      obtain ⟨hlt, hmatch, -⟩ := List.findIdx?_eq_some_iff_getElem.1 hi
      exact .inr (.inr ⟨i, (List.getElem?_eq_getElem hlt).trans (congrArg some (eq_of_beq hmatch)),
        rfl⟩)

theorem columnIndex_inj (h : archetype.columnIndex c = some col)
    (h' : archetype.columnIndex c' = some col) : c = c' := by
  rcases columnIndex_cases h with ⟨rfl, rfl⟩ | ⟨rfl, rfl⟩ | ⟨i, hi, rfl⟩
  · rcases columnIndex_cases h' with ⟨rfl, -⟩ | ⟨-, hcol⟩ | ⟨j, -, hcol⟩
    · rfl
    · contradiction
    · exact absurd hcol (by simp [entityColumn, userColumn]; omega)
  · rcases columnIndex_cases h' with ⟨-, hcol⟩ | ⟨rfl, -⟩ | ⟨j, -, hcol⟩
    · contradiction
    · rfl
    · exact absurd hcol (by simp [worldIdColumn, userColumn]; omega)
  · rcases columnIndex_cases h' with ⟨-, hcol⟩ | ⟨-, hcol⟩ | ⟨j, hj, hcol⟩
    · exact absurd hcol (by simp [entityColumn, userColumn])
    · exact absurd hcol (by simp [worldIdColumn, userColumn]; omega)
    · obtain rfl := Nat.add_left_cancel hcol
      exact Option.some.inj (hi.symm.trans hj)

/-- Each component has a column of its registered layout, with room for all rows. -/
structure Sound (archetype : Archetype) (registry : ComponentRegistry) : Prop where
  column : ∀ c col, archetype.columnIndex c = some col →
    ∃ column, archetype.table.columns[col]? = some column ∧
      registry.info? c = some column.info ∧ column.reservedRows = archetype.table.maxRows
  numRows_le : archetype.table.numRows ≤ archetype.table.maxRows

theorem Sound.setTable (h : archetype.Sound registry) {table : Table}
    (hshape : archetype.table.SameShape table) (hrows : table.numRows ≤ table.maxRows) :
    ({ archetype with table } : Archetype).Sound registry where
  column c col hcol := by
    obtain ⟨column, hcolumn, hinfo, hreserved⟩ := h.column c col hcol
    obtain ⟨column', hcolumn', hsame⟩ := hshape.columns col column hcolumn
    exact ⟨column', hcolumn', hsame.info.symm ▸ hinfo,
      hsame.reservedRows.trans (hreserved.trans hshape.maxRows.symm)⟩
  numRows_le := hrows

theorem Sound.fitting (h : archetype.Sound registry) (hcol : archetype.columnIndex c = some col)
    {layout info : TypeInfo} (hlayout : registry.info? c = some layout) (hfits : info.Fits layout) :
    ∃ column, archetype.table.columns[col]? = some column ∧ column.holds info = true ∧
      column.reservedRows = archetype.table.maxRows := by
  obtain ⟨column, hcolumn, hinfo, hreserved⟩ := h.column c col hcol
  obtain rfl := Option.some.inj (hlayout.symm.trans hinfo)
  exact ⟨column, hcolumn, Column.holds_iff.2 hfits, hreserved⟩

end Archetype

/-! ## Storages -/

namespace Storage

variable {s : Storage} {a : ArchetypeId} {archetype : Archetype} {table : Table} {e : Entity}
  {location : EntityLocation} {c : ComponentId} {col : Nat} {info layout : TypeInfo}

/-- A storage is made from a configuration without an issue, and it is empty. -/
theorem new_eq_ok {config : StateConfig} (h : Storage.new config = .ok s) :
    config.issue? = none ∧ s = {
      config
      registry := .builtins config.maxComponents
      archetypes := #[]
      archetypeComponents := #[]
      queries := .empty config.maxQueryData
      entities := .empty config.maxEntities } := by
  unfold Storage.new StateConfig.validate at h
  cases hissue : config.issue? with
  | some issue => simp [hissue, bind, Except.bind] at h
  | none =>
      rw [hissue] at h
      exact ⟨rfl, (Except.ok.inj h).symm⟩

structure WellFormed (s : Storage) : Prop where
  entities : s.entities.Sound
  entityInfo : s.registry.info? .entity = some .entity
  worldIdInfo : s.registry.info? .worldId = some .worldId
  archetypes : ∀ (i : Nat) archetype, s.archetypes[i]? = some archetype →
    archetype.Sound s.registry

def view (s : Storage) : StorageView where
  slots := s.entities.slotAt
  live := s.entities.liveCount
  rows a := (s.archetypes[a.index]?.map (·.table.numRows)).getD 0
  cells location c := s.archetypes[location.archetype.index]?.bind fun archetype =>
    (archetype.columnIndex c).map (archetype.table.bytesAt · location.row)

theorem rows_view (h : s.archetypes[a.index]? = some archetype) :
    s.view.rows a = archetype.table.numRows := by
  simp [view, h]

theorem cells_view (h : s.archetypes[location.archetype.index]? = some archetype) :
    s.view.cells location c =
      (archetype.columnIndex c).map (archetype.table.bytesAt · location.row) := by
  simp [view, h]

/-- Only registered archetypes have rows. -/
theorem exists_of_row_lt {n : Nat} (h : n < s.view.rows a) :
    ∃ archetype, s.archetypes[a.index]? = some archetype ∧ n < archetype.table.numRows := by
  cases harchetype : s.archetypes[a.index]? with
  | none => simp [view, harchetype] at h
  | some archetype => exact ⟨archetype, rfl, rows_view harchetype ▸ h⟩

theorem archetype_eq_ok :
    s.archetype a = .ok archetype ↔ s.archetypes[a.index]? = some archetype := by
  unfold Storage.archetype
  split <;> simp_all

theorem numRows_eq (s : Storage) (a : ArchetypeId) : s.numRows a =
    if a.index < s.archetypes.size then .ok (s.view.rows a) else .error (.unknownArchetype a) := by
  split
  · rename_i hlt
    have harchetype := Array.getElem?_eq_getElem hlt
    rw [numRows, archetype_eq_ok.2 harchetype, rows_view harchetype]
    rfl
  · rename_i hle
    rw [numRows, Storage.archetype, Array.getElem?_eq_none (Nat.le_of_not_lt hle)]
    rfl

theorem rows_of_numRows {n : Nat} (h : (s.numRows a).toOption = some n) : s.view.rows a = n := by
  rw [numRows_eq] at h
  split at h
  · exact Option.some.inj h
  · contradiction

theorem WellFormed.get_ok (hs : s.WellFormed)
    (h : s.archetypes[location.archetype.index]? = some archetype)
    (hrow : location.row < archetype.table.numRows) (hcol : archetype.columnIndex c = some col)
    (hlayout : s.registry.info? c = some layout) (hfits : info.Fits layout) :
    ∃ value, archetype.table.get col location.row info = .ok (some value) ∧ value.info = info ∧
      s.view.cells location c = some value.bytes := by
  obtain ⟨column, hcolumn, hholds, -⟩ := (hs.archetypes _ _ h).fitting hcol hlayout hfits
  refine ⟨_, Table.get_ok hrow hcolumn hholds, rfl, ?_⟩
  rw [cells_view h, hcol, Option.map_some, Table.bytesAt_of_column hcolumn,
    Column.bytes_cell hholds]

theorem entityLocation_eq_some (hs : s.WellFormed) :
    s.entityLocation e = some location ↔ s.view.Located e location := by
  unfold entityLocation
  simp only [Option.bind_eq_bind, Option.bind_eq_some_iff, EntityStore.location?_eq_some]
  constructor
  · rintro ⟨found, hslot, archetype, harchetype, howner⟩
    split at howner
    · rename_i value hget
      split at howner
      · rename_i hbytes
        obtain rfl := Option.some.inj howner
        have hrow : found.row < archetype.table.numRows := by
          by_contra hle
          rw [Table.get, if_pos (Nat.le_of_not_lt hle)] at hget
          cases Except.ok.inj hget
        obtain ⟨value', hget', -, hcell⟩ := hs.get_ok harchetype hrow
          Archetype.columnIndex_entity hs.entityInfo (TypeInfo.fits_self _)
        obtain rfl : value = value' := by simpa [hget] using hget'
        exact ⟨hslot, (rows_view harchetype).symm ▸ hrow, by rw [hcell, Option.map_some, hbytes]⟩
      · contradiction
    · contradiction
  · rintro ⟨hslot, hrow, hcell⟩
    obtain ⟨archetype, harchetype, hrow⟩ := exists_of_row_lt hrow
    obtain ⟨value, hget, -, hvalue⟩ := hs.get_ok harchetype hrow
      Archetype.columnIndex_entity hs.entityInfo (TypeInfo.fits_self _)
    refine ⟨location, hslot, archetype, harchetype, ?_⟩
    rw [hvalue, Option.map_some, Option.some.injEq] at hcell
    rw [hget]
    exact if_pos hcell

theorem isValid_iff (hs : s.WellFormed) :
    s.isValid e = true ↔ ∃ location, s.view.Located e location := by
  rw [isValid, Option.isSome_iff_exists]
  exact exists_congr fun location => entityLocation_eq_some hs

theorem locateComponent_stale (h : s.entityLocation e = none) (c : ComponentId)
    (info : TypeInfo) : s.locateComponent e c info = .error (.staleEntity e) := by
  rw [locateComponent, h]

theorem getComponent_ok (hs : s.WellFormed) (hlocated : s.view.Located e location)
    (h : s.archetypes[location.archetype.index]? = some archetype)
    (hcol : archetype.columnIndex c = some col) (hlayout : s.registry.info? c = some layout)
    (hfits : info.Fits layout) :
    ∃ value, s.getComponent e c info = .ok value ∧ value.info = info ∧
      s.view.cells location c = some value.bytes := by
  have hrow : location.row < archetype.table.numRows := (rows_view h) ▸ hlocated.row_lt
  obtain ⟨column, hcolumn, hholds, -⟩ := (hs.archetypes _ _ h).fitting hcol hlayout hfits
  obtain ⟨value, hget, hinfo, hcell⟩ := hs.get_ok h hrow hcol hlayout hfits
  have hlocate : s.locateComponent e c info = .ok (location, archetype, col) := by
    simp [locateComponent, (entityLocation_eq_some hs).2 hlocated, archetype_eq_ok.2 h, hcol,
      Table.typedColumn_ok hcolumn hholds, bind, Except.bind]
  refine ⟨value, ?_, hinfo, hcell⟩
  simp [getComponent, hlocate, hget, bind, Except.bind]

theorem archetypes_setTable (h : s.archetypes[a.index]? = some archetype) (i : Nat) :
    (s.setTable a table).archetypes[i]? =
      if i = a.index then some { archetype with table } else s.archetypes[i]? := by
  rw [setTable, Array.getElem?_modify]
  split
  · rename_i hi
    rw [if_pos hi.symm, ← hi, h]
    rfl
  · rename_i hi
    rw [if_neg (Ne.symm hi)]

theorem WellFormed.setTable (hs : s.WellFormed) (h : s.archetypes[a.index]? = some archetype)
    (hshape : archetype.table.SameShape table) (hrows : table.numRows ≤ table.maxRows) :
    (s.setTable a table).WellFormed where
  entities := hs.entities
  entityInfo := hs.entityInfo
  worldIdInfo := hs.worldIdInfo
  archetypes i found hfound := by
    rw [archetypes_setTable h] at hfound
    split at hfound
    · obtain rfl := Option.some.inj hfound
      exact (hs.archetypes _ _ h).setTable hshape hrows
    · exact hs.archetypes i found hfound

theorem WellFormed.setEntities (hs : s.WellFormed) {entities : EntityStore}
    (h : entities.Sound) : ({ s with entities } : Storage).WellFormed :=
  { hs with entities := h }

theorem rows_setTable (h : s.archetypes[a.index]? = some archetype) :
    (s.setTable a table).view.rows = (s.view.setRows a table.numRows).rows := by
  funext a'
  by_cases ha : a' = a
  · subst ha
    rw [StorageView.rows_setRows_self]
    simp [view, archetypes_setTable h]
  · have hindex : a'.index ≠ a.index := fun hindex => ha (ArchetypeId.index_inj hindex)
    rw [StorageView.rows_setRows_ne ha]
    simp [view, archetypes_setTable h, hindex]

theorem cells_setTable (h : s.archetypes[a.index]? = some archetype) (location : EntityLocation)
    (c : ComponentId) : (s.setTable a table).view.cells location c =
      if location.archetype = a then
        (archetype.columnIndex c).map (table.bytesAt · location.row)
      else s.view.cells location c := by
  split
  · rename_i ha
    subst ha
    simp [view, archetypes_setTable h, Archetype.columnIndex]
  · rename_i ha
    have hindex : location.archetype.index ≠ a.index := fun hindex =>
      ha (ArchetypeId.index_inj hindex)
    simp [view, archetypes_setTable h, hindex]

/-- Rows come and go without a change to any cell. -/
theorem view_setTable_of_bytesAt (h : s.archetypes[a.index]? = some archetype)
    (hbytes : ∀ col row, table.bytesAt col row = archetype.table.bytesAt col row) :
    (s.setTable a table).view = s.view.setRows a table.numRows := by
  refine StorageView.ext rfl rfl (rows_setTable h) ?_
  funext location c
  rw [cells_setTable h]
  split
  · rename_i ha
    subst ha
    simp only [hbytes]
    exact (cells_view h).symm
  · rfl

theorem view_setTable_of_wrote {row : Nat} {value : Value}
    (h : s.archetypes[a.index]? = some archetype) (hcol : archetype.columnIndex c = some col)
    (hwrote : archetype.table.Wrote col row value table) :
    (s.setTable a table).view = s.view.write ⟨a, row⟩ c value.bytes := by
  refine StorageView.ext rfl rfl ?_ ?_
  · funext a'
    rw [rows_setTable h, hwrote.numRows, ← rows_view h]
    exact congrFun (Function.update_eq_self ..) a'
  · funext location c'
    rw [cells_setTable h]
    by_cases hboth : location = ⟨a, row⟩ ∧ c' = c
    · obtain ⟨rfl, rfl⟩ := hboth
      rw [if_pos rfl, hcol, Option.map_some, hwrote.bytesAt, if_pos ⟨rfl, rfl⟩,
        StorageView.cells_write_self]
    · rw [StorageView.cells_write_ne (not_and_or.1 hboth)]
      split
      · rename_i ha
        subst ha
        rw [cells_view h]
        apply Option.map_congr
        intro col' hcol'
        rw [hwrote.bytesAt, if_neg]
        rintro ⟨rfl, rfl⟩
        exact hboth ⟨rfl, Archetype.columnIndex_inj hcol' hcol⟩
      · rfl

theorem setTable_setTable (s : Storage) (a : ArchetypeId) (table table' : Table) :
    (s.setTable a table).setTable a table' = s.setTable a table' := by
  have harchetypes : ((s.setTable a table).setTable a table').archetypes =
      (s.setTable a table').archetypes := by
    apply Array.ext_getElem?
    intro i
    simp only [setTable, Array.getElem?_modify]
    split
    · rw [Option.map_map]
      rfl
    · rfl
  simp only [setTable] at harchetypes ⊢
  rw [harchetypes]

theorem WellFormed.write (hs : s.WellFormed) {row : Nat} (value : Value)
    (h : s.archetypes[a.index]? = some archetype) (hcol : archetype.columnIndex c = some col)
    (hlayout : s.registry.info? c = some layout) (hfits : value.info.Fits layout)
    (hrow : row < archetype.table.maxRows) :
    ∃ table, archetype.table.write col row value = .ok table ∧
      archetype.table.Wrote col row value table ∧ (s.setTable a table).WellFormed ∧
      (s.setTable a table).view = s.view.write ⟨a, row⟩ c value.bytes := by
  have hsound := hs.archetypes _ _ h
  obtain ⟨column, hcolumn, hholds, hreserved⟩ := hsound.fitting hcol hlayout hfits
  obtain ⟨table, hwrite, hwrote⟩ := Table.write_ok hcolumn hholds (hreserved.symm ▸ hrow)
  have hview := view_setTable_of_wrote h hcol hwrote
  refine ⟨table, hwrite, hwrote, hs.setTable h hwrote.shape ?_, hview⟩
  rw [hwrote.numRows, hwrote.shape.maxRows]
  exact hsound.numRows_le

theorem WellFormed.setRegistry (hs : s.WellFormed) {registry : ComponentRegistry}
    (h : ∀ c info, s.registry.info? c = some info → registry.info? c = some info) :
    ({ s with registry } : Storage).WellFormed where
  entities := hs.entities
  entityInfo := h _ _ hs.entityInfo
  worldIdInfo := h _ _ hs.worldIdInfo
  archetypes i archetype harchetype := by
    obtain ⟨hcolumn, hrows⟩ := hs.archetypes i archetype harchetype
    refine ⟨fun c col hcol => ?_, hrows⟩
    obtain ⟨column, hfound, hinfo, hreserved⟩ := hcolumn c col hcol
    exact ⟨column, hfound, h _ _ hinfo, hreserved⟩

end Storage
end Lockstep
