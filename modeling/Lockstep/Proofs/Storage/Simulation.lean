import Lockstep.Proofs.Component.Slots
import Lockstep.Proofs.Storage.Making

/-!
# Calls of a storage

Every call keeps a storage well formed, and what it does to the view is one of the changes.
-/

namespace Lockstep

namespace Storage

variable {s s' : Storage} {call : StorageCall} {answer : StorageAnswer}

/-- What a call does to a well-formed storage. -/
structure Simulates (s : Storage) (call : StorageCall) : Prop where
  change : s.view.Change ⟨call, (s.perform call).1⟩ (s.released? call) (s.perform call).2.view
  wellFormed : (s.perform call).2.WellFormed

theorem simulates_of_idle (h : s.perform call = (answer, s'))
    (hidle : StorageExchange.isIdle ⟨call, answer⟩ = true) (hreleased : s.released? call = none)
    (hview : s'.view = s.view) (hs' : s'.WellFormed) : s.Simulates call := by
  constructor
  · rw [h, hreleased, hview]
    exact .adds hidle fun _ _ => .inl rfl
  · rw [h]
    exact hs'

theorem simulates_of_refused {error : StorageError} (hs : s.WellFormed)
    (h : s.perform call = (.refused error, s)) (hreleased : s.released? call = none) :
    s.Simulates call := by
  refine simulates_of_idle h ?_ hreleased rfl hs
  cases call <;> rfl

variable (hs : s.WellFormed)
include hs

theorem simulates_registerComponent (info : TypeInfo) :
    s.Simulates (.registerComponent info) := by
  cases hregister : s.registry.register info with
  | error e =>
      have hperform : s.perform (.registerComponent info) = (.refused e, s) := by
        simp [perform_registerComponent, registerComponent, hregister, bind, Except.bind]
      exact simulates_of_refused hs hperform rfl
  | ok result =>
      obtain ⟨id, registry⟩ := result
      have hperform : s.perform (.registerComponent info) =
          (.component id, { s with registry }) := by
        simp [perform_registerComponent, registerComponent, hregister, bind, Except.bind, pure,
          Except.pure]
      exact simulates_of_idle hperform rfl rfl rfl
        (hs.setRegistry (ComponentRegistry.info?_of_register hregister))

theorem simulates_registerComponentWithId (id : ComponentId) (info : TypeInfo) :
    s.Simulates (.registerComponentWithId id info) := by
  cases hregister : s.registry.registerWithId id info with
  | error e =>
      have hperform : s.perform (.registerComponentWithId id info) = (.refused e, s) := by
        simp [perform_registerComponentWithId, registerComponentWithId, hregister, bind,
          Except.bind]
      exact simulates_of_refused hs hperform rfl
  | ok registry =>
      have hperform : s.perform (.registerComponentWithId id info) =
          (.done, { s with registry }) := by
        simp [perform_registerComponentWithId, registerComponentWithId, hregister, bind,
          Except.bind, pure, Except.pure]
      exact simulates_of_idle hperform rfl rfl rfl
        (hs.setRegistry (ComponentRegistry.info?_of_registerWithId hregister))

theorem simulates_registerComponentType (type : ValueType) :
    s.Simulates (.registerComponentType type) := by
  cases hregister : s.registry.registerType type with
  | error e =>
      have hperform : s.perform (.registerComponentType type) = (.refused e, s) := by
        simp [perform_registerComponentType, registerComponentType, hregister, bind, Except.bind]
      exact simulates_of_refused hs hperform rfl
  | ok result =>
      obtain ⟨id, registry⟩ := result
      have hperform : s.perform (.registerComponentType type) =
          (.component id, { s with registry }) := by
        simp [perform_registerComponentType, registerComponentType, hregister, bind, Except.bind,
          pure, Except.pure]
      exact simulates_of_idle hperform rfl rfl rfl
        (hs.setRegistry (ComponentRegistry.info?_of_registerType hregister))

omit hs in
/-- The layouts of an archetype are those that its components are registered with. -/
theorem info?_of_userInfos {components seen : List ComponentId} {infos : List TypeInfo}
    (h : s.userInfos seen components = .ok infos) {i : Nat} {c : ComponentId}
    (hc : components[i]? = some c) :
    ∃ info, infos[i]? = some info ∧ s.registry.info? c = some info := by
  induction components generalizing seen infos i with
  | nil => contradiction
  | cons c' rest ih =>
      unfold userInfos at h
      split at h
      · contradiction
      · split at h
        · contradiction
        · rename_i info hinfo
          cases hrest : s.userInfos (c' :: seen) rest with
          | error e => simp [hrest, bind, Except.bind] at h
          | ok infos' =>
              rw [hrest] at h
              obtain rfl := Except.ok.inj h
              cases i with
              | zero =>
                  obtain rfl := Option.some.inj hc
                  exact ⟨info, rfl, hinfo⟩
              | succ i => exact ih hrest hc

theorem sound_of_new {components : List ComponentId} {infos : List TypeInfo} {offset : Nat}
    {maxRows chunk : UInt32} {table : Table} (hinfos : s.userInfos [] components = .ok infos)
    (htable : Table.new (Archetype.columnInfos infos) maxRows chunk = .ok table) :
    Archetype.Sound ⟨offset, components, table⟩ s.registry := by
  obtain ⟨hrows, -, hcolumns⟩ := Table.new_eq htable
  have hcolumn : ∀ c (col : Nat) info, (Archetype.columnInfos infos)[col]? = some info →
      s.registry.info? c = some info → ∃ column, table.columns[col]? = some column ∧
        s.registry.info? c = some column.info ∧ column.reservedRows = table.maxRows := by
    intro c col info hcol hinfo
    obtain ⟨column, hcolumn, rfl, hreserved⟩ := hcolumns col info hcol
    exact ⟨column, hcolumn, hinfo, hreserved⟩
  refine ⟨fun c col hcol => ?_, hrows.symm ▸ Nat.zero_le _⟩
  rcases Archetype.columnIndex_cases hcol with ⟨rfl, rfl⟩ | ⟨rfl, rfl⟩ | ⟨i, hi, rfl⟩
  · exact hcolumn _ 0 _ rfl hs.entityInfo
  · exact hcolumn _ 1 _ rfl hs.worldIdInfo
  · obtain ⟨info, hinfo, hregistered⟩ := info?_of_userInfos hinfos hi
    refine hcolumn _ _ info ?_ hregistered
    rw [Archetype.userColumn, Nat.add_comm]
    exact hinfo

omit hs in
theorem userInfos_of_checkArchetype {components : List ComponentId} {infos : List TypeInfo}
    (h : s.checkArchetype components = .ok infos) : s.userInfos [] components = .ok infos := by
  unfold checkArchetype at h
  split at h
  · contradiction
  · split at h
    · contradiction
    · exact h

omit hs in
/-- A new archetype has no rows, and no cell of an older one changes. -/
theorem change_of_push {x : StorageExchange} {archetype : Archetype} (hidle : x.isIdle = true)
    (hpush : s' = { s with
      archetypes := s.archetypes.push archetype
      archetypeComponents := s'.archetypeComponents })
    (hrows : archetype.table.numRows = 0)
    (hzero : ∀ col row, ∀ b ∈ archetype.table.bytesAt col row, b = 0) :
    s.view.Change x none s'.view := by
  have hold : ∀ a : ArchetypeId, a.index ≠ s.archetypes.size →
      s'.archetypes[a.index]? = s.archetypes[a.index]? := by
    intro a ha
    rw [hpush, Array.getElem?_push, if_neg ha]
  have hnone : ∀ a : ArchetypeId, a.index = s.archetypes.size → s.archetypes[a.index]? = none :=
    fun a ha => Array.getElem?_eq_none ha.ge
  have hnew : ∀ a : ArchetypeId, a.index = s.archetypes.size →
      s'.archetypes[a.index]? = some archetype := by
    intro a ha
    rw [hpush, Array.getElem?_push, if_pos ha]
  have hview : s'.view = { s.view with cells := s'.view.cells } := by
    refine StorageView.ext ?_ ?_ ?_ rfl
    · rw [hpush]
      rfl
    · rw [hpush]
      rfl
    · funext a
      by_cases ha : a.index = s.archetypes.size
      · simp [view, hnew a ha, hnone a ha, hrows]
      · simp [view, hold a ha]
  rw [hview]
  refine .adds hidle fun location c => ?_
  by_cases ha : location.archetype.index = s.archetypes.size
  · refine .inr ⟨by simp [view, hnone _ ha], by simp [view, hnone _ ha], fun bytes hbytes => ?_⟩
    rw [cells_view (hnew _ ha)] at hbytes
    obtain ⟨col, -, rfl⟩ := Option.map_eq_some_iff.1 hbytes
    exact hzero col location.row
  · exact .inl (by simp [view, hold _ ha])

theorem simulates_registerArchetype (components : List ComponentId) :
    s.Simulates (.registerArchetype components) := by
  cases hcheck : s.checkArchetype components with
  | error e =>
      have hperform : s.perform (.registerArchetype components) = (.refused e, s) := by
        simp [perform_registerArchetype, registerArchetype, hcheck]
      exact simulates_of_refused hs hperform rfl
  | ok infos =>
      cases htable : Table.new (Archetype.columnInfos infos) s.config.maxRowsPerTable
          s.config.numWorlds with
      | error fault =>
          have hperform : s.perform (.registerArchetype components) = (.faulted fault, s) := by
            simp [perform_registerArchetype, registerArchetype, hcheck, htable, bind, Except.bind]
          exact simulates_of_idle hperform rfl rfl rfl hs
      | ok table =>
          obtain ⟨hrows, hzero, -⟩ := Table.new_eq htable
          have hsound :
              Archetype.Sound ⟨s.archetypeComponents.size, components, table⟩ s.registry :=
            sound_of_new hs (userInfos_of_checkArchetype hcheck) htable
          have hperform : s.perform (.registerArchetype components) =
              (.archetype ⟨UInt32.ofNat s.archetypes.size⟩, { s with
                archetypes := s.archetypes.push ⟨s.archetypeComponents.size, components, table⟩
                archetypeComponents := s.archetypeComponents ++ components.toArray }) := by
            simp [perform_registerArchetype, registerArchetype, hcheck, htable, bind, Except.bind,
              pure, Except.pure]
          constructor
          · rw [hperform]
            exact change_of_push rfl rfl hrows hzero
          · rw [hperform]
            refine ⟨hs.entities, hs.entityInfo, hs.worldIdInfo, fun i archetype harchetype => ?_⟩
            rw [Array.getElem?_push] at harchetype
            split at harchetype
            · obtain rfl := Option.some.inj harchetype
              exact hsound
            · exact hs.archetypes i archetype harchetype

omit hs in
theorem makeQuery_eq (s : Storage) (components : List ComponentId) (ref : QueryRef) :
    ∃ result ref' queries, s.makeQuery components ref = (result, ref', { s with queries }) := by
  unfold makeQuery
  split
  · exact ⟨_, _, _, rfl⟩
  · split
    · exact ⟨_, _, _, rfl⟩
    · split
      · exact ⟨_, _, _, rfl⟩
      · exact ⟨_, _, _, rfl⟩

theorem simulates_makeQuery (components : List ComponentId) (ref : QueryRef) :
    s.Simulates (.makeQuery components ref) := by
  obtain ⟨result, ref', queries, hquery⟩ := s.makeQuery_eq components ref
  have hs' : ({ s with queries } : Storage).WellFormed := { hs with }
  have hperform : s.perform (.makeQuery components ref) =
      (.query result ref', { s with queries }) := by simp only [perform_makeQuery, hquery]
  exact simulates_of_idle hperform rfl rfl rfl hs'

theorem simulates_clearTemporaries (a : ArchetypeId) : s.Simulates (.clearTemporaries a) := by
  cases h : s.archetype a with
  | error e =>
      have hperform : s.perform (.clearTemporaries a) = (.refused e, s) := by
        simp [perform_clearTemporaries, clearTemporaries, h, bind, Except.bind]
      exact simulates_of_refused hs hperform rfl
  | ok archetype =>
      have harchetype := archetype_eq_ok.1 h
      have hperform : s.perform (.clearTemporaries a) =
          (.done, s.setTable a archetype.table.clear) := by
        simp [perform_clearTemporaries, clearTemporaries, h, bind, Except.bind, pure, Except.pure]
      have hview : (s.setTable a archetype.table.clear).view = s.view.setRows a 0 :=
        view_setTable_of_bytesAt harchetype fun _ _ => rfl
      constructor
      · rw [hperform, hview]
        exact .clears
      · rw [hperform]
        exact hs.setTable harchetype archetype.table.sameShape_clear (Nat.zero_le _)

theorem simulates_allocRows (a : ArchetypeId) (count : Nat) :
    s.Simulates (.allocRows a count) := by
  cases h : s.archetype a with
  | error e =>
      have hperform : s.perform (.allocRows a count) = (.refused e, s) := by
        simp [perform_allocRows, allocRows, h, bind, Except.bind]
      exact simulates_of_refused hs hperform rfl
  | ok archetype =>
      have harchetype := archetype_eq_ok.1 h
      cases hrows : archetype.table.allocRows count with
      | error e =>
          have hperform : s.perform (.allocRows a count) = (.refused e, s) := by
            simp [perform_allocRows, allocRows, h, hrows, bind, Except.bind]
          exact simulates_of_refused hs hperform rfl
      | ok result =>
          obtain ⟨first, table⟩ := result
          have htook := Table.took_of_allocRows hrows
          have hperform : s.perform (.allocRows a count) = (.rows first, s.setTable a table) := by
            simp [perform_allocRows, allocRows, h, hrows, bind, Except.bind, pure, Except.pure]
          constructor
          · rw [hperform, view_setTable_of_bytesAt harchetype htook.bytesAt, htook.numRows,
              htook.first, ← rows_view harchetype]
            exact .takes
          · rw [hperform]
            exact hs.setTable harchetype htook.shape (htook.shape.maxRows.symm ▸ htook.le)

/-! ## Entities -/

omit hs in
theorem locateComponent_ok {e : Entity} {c : ComponentId} {info : TypeInfo}
    {location : EntityLocation} {archetype : Archetype} {col : Nat}
    (h : s.locateComponent e c info = .ok (location, archetype, col)) :
    s.entityLocation e = some location ∧
      s.archetypes[location.archetype.index]? = some archetype ∧
      archetype.columnIndex c = some col ∧
      ∃ column, archetype.table.columns[col]? = some column ∧ column.holds info = true := by
  unfold locateComponent at h
  split at h
  · contradiction
  · rename_i found hfound
    cases harchetype : s.archetype found.archetype with
    | error e => simp [harchetype, bind, Except.bind] at h
    | ok archetype' =>
        simp only [harchetype, bind, Except.bind] at h
        split at h
        · contradiction
        · rename_i col' hcol
          split at h
          · rename_i column hcolumn
            obtain ⟨rfl, rfl, rfl⟩ : found = location ∧ archetype' = archetype ∧ col' = col := by
              simpa using h
            exact ⟨hfound, archetype_eq_ok.1 harchetype, hcol, column,
              Table.typedColumn_cases hcolumn⟩
          · contradiction

/-- A value of a fitting layout is written into the cell. -/
theorem setComponent_ok {e : Entity} {c : ComponentId} {value : Value} {location : EntityLocation}
    {archetype : Archetype} {col : Nat} {layout : TypeInfo}
    (hlocated : s.view.Located e location)
    (h : s.archetypes[location.archetype.index]? = some archetype)
    (hcol : archetype.columnIndex c = some col) (hlayout : s.registry.info? c = some layout)
    (hfits : value.info.Fits layout) :
    ∃ table, s.setComponent e c value = .ok (s.setTable location.archetype table) ∧
      (s.setTable location.archetype table).WellFormed ∧
      (s.setTable location.archetype table).view = s.view.write location c value.bytes := by
  have hrow : location.row < archetype.table.numRows := rows_view h ▸ hlocated.row_lt
  have hsound := hs.archetypes _ _ h
  obtain ⟨column, hcolumn, hholds, -⟩ := hsound.fitting hcol hlayout hfits
  have hlocate : s.locateComponent e c value.info = .ok (location, archetype, col) := by
    simp [locateComponent, (entityLocation_eq_some hs).2 hlocated, archetype_eq_ok.2 h, hcol,
      Table.typedColumn_ok hcolumn hholds, bind, Except.bind]
  obtain ⟨table, hwrite, -, hs', hview⟩ :=
    hs.write value h hcol hlayout hfits (hrow.trans_le hsound.numRows_le)
  have hset : archetype.table.set col location.row value = .ok (some table) := by
    simp [Table.set, Nat.not_le.2 hrow, hwrite, bind, Except.bind, pure, Except.pure]
  refine ⟨table, ?_, hs', hview⟩
  simp [setComponent, hlocate, hset, bind, Except.bind]

theorem simulates_setComponent (e : Entity) (c : ComponentId) (value : Value) :
    s.Simulates (.setComponent e c value) := by
  cases hlocate : s.locateComponent e c value.info with
  | error error =>
      have hperform : s.perform (.setComponent e c value) = (.refused error, s) := by
        simp [perform_setComponent, setComponent, hlocate, bind, Except.bind]
      exact simulates_of_refused hs hperform rfl
  | ok result =>
      obtain ⟨location, archetype, col⟩ := result
      obtain ⟨hlocation, h, hcol, column, hcolumn, hholds⟩ := locateComponent_ok hlocate
      have hlocated := (entityLocation_eq_some hs).1 hlocation
      obtain ⟨column', hcolumn', hlayout, -⟩ := (hs.archetypes _ _ h).column c col hcol
      obtain rfl := Option.some.inj (hcolumn.symm.trans hcolumn')
      obtain ⟨table, hset, hs', hview⟩ :=
        setComponent_ok hs hlocated h hcol hlayout (Column.holds_iff.1 hholds)
      have hperform : s.perform (.setComponent e c value) =
          (.done, s.setTable location.archetype table) := by
        rw [perform_setComponent, hset]
      constructor
      · rw [hperform, hview]
        exact .sets hlocated
      · rw [hperform]
        exact hs'

theorem simulates_destroyEntity (e : Entity) : s.Simulates (.destroyEntity e) := by
  by_cases hlive : s.entities.isLive e = true
  · obtain ⟨entities, hrelease, hfreed⟩ := EntityStore.freed_of_live hs.entities hlive
    obtain ⟨found, hslot⟩ := EntityStore.isLive_iff.1 hlive
    have hperform : s.perform (.destroyEntity e) = (.destroyed true, { s with entities }) := by
      simp [perform_destroyEntity, destroyEntity?, hrelease]
    constructor
    · have hview : ({ s with entities } : Storage).view =
          (s.view.setSlot e.index ⟨e.generation + 1, .free⟩).setLive entities.liveCount :=
        StorageView.ext hfreed.slotAt rfl rfl rfl
      rw [hperform, released?, if_pos hlive, hview]
      exact .destroys hslot hfreed.liveCount
    · rw [hperform]
      exact hs.setEntities hfreed.sound
  · have hperform : s.perform (.destroyEntity e) = (.destroyed false, s) := by
      simp [perform_destroyEntity, destroyEntity?, EntityStore.release?, hlive]
    exact simulates_of_idle hperform rfl (by rw [released?, if_neg hlive]) rfl hs

/-- An entity is made with the next row of its table; when there is none, its slot is given
back. -/
theorem simulates_makeEntity (a : ArchetypeId) (world : WorldId) :
    s.Simulates (.makeEntity a world) := by
  obtain ⟨answer, s', hmake, hmaking⟩ := making hs a world
  cases hmaking with
  | unknown absent eq =>
      rw [eq] at hmake
      have hperform : s.perform (.makeEntity a world) = (.refused (.unknownArchetype a), s) := by
        simp only [perform_makeEntity, hmake]
      exact simulates_of_refused hs hperform (by simp [released?, hmake])
  | exhausted found allocate eq =>
      rw [eq] at hmake
      have hperform : s.perform (.makeEntity a world) =
          (.refused (.entityCapacity s.config.maxEntities), s) := by
        simp only [perform_makeEntity, hmake]
      exact simulates_of_refused hs hperform (by simp [released?, hmake])
  | @full archetype e taken freed found allocate release returned rows eq =>
      subst eq
      have hperform : s.perform (.makeEntity a world) =
          (.refused (.tableFull archetype.table.maxRows), { s with entities := freed }) := by
        simp only [perform_makeEntity, hmake]
      -- The slot is in the generation after the one in which it was taken.
      have hview : ({ s with entities := freed } : Storage).view =
          s.view.setSlot e.index ⟨e.generation + 1, .free⟩ :=
        StorageView.ext returned.slotAt returned.liveCount rfl rfl
      constructor
      · rw [hperform, hview, released?, hmake, allocate]
        exact .returns rfl returned.free
      · rw [hperform]
        exact hs.setEntities returned.sound
  | @made archetype e taken placed table found allocate place free lt numRows maxRows eq view
      wellFormed =>
      have hperform : s.perform (.makeEntity a world) = (.entity e, s') := by
        simp only [perform_makeEntity, hmake]
      constructor
      · rw [hperform, view, released?, hmake]
        exact .makes free
      · rw [hperform]
        exact wellFormed

/-! ## Runs -/

theorem simulates (call : StorageCall) : s.Simulates call := by
  cases call with
  | registerComponent info => exact simulates_registerComponent hs info
  | registerComponentWithId id info => exact simulates_registerComponentWithId hs id info
  | registerComponentType type => exact simulates_registerComponentType hs type
  | registerArchetype components => exact simulates_registerArchetype hs components
  | makeEntity a world => exact simulates_makeEntity hs a world
  | destroyEntity e => exact simulates_destroyEntity hs e
  | clearTemporaries a => exact simulates_clearTemporaries hs a
  | makeQuery components ref => exact simulates_makeQuery hs components ref
  | setComponent e c value => exact simulates_setComponent hs e c value
  | allocRows a count => exact simulates_allocRows hs a count

theorem wellFormed_after (calls : List StorageCall) : (s.after calls).WellFormed := by
  induction calls generalizing s with
  | nil => exact hs
  | cons call calls ih => exact ih (simulates hs call).wellFormed

/-- A new entity lives in the next row of its archetype. -/
theorem entityLocation_of_made {a : ArchetypeId} {world : WorldId} {e : Entity}
    (hmade : s.perform (.makeEntity a world) = (.entity e, s')) :
    s'.entityLocation e = some ⟨a, s.view.rows a⟩ := by
  obtain ⟨hchange, hs'⟩ := simulates hs (.makeEntity a world)
  rw [hmade] at hchange hs'
  rw [entityLocation_eq_some hs', hchange.settles]
  exact StorageView.located_settle ..

omit hs

/-- A new storage is well formed, and there is nothing to see in it. -/
theorem wellFormed_of_new {config : StateConfig} (h : Storage.new config = .ok s) :
    s.WellFormed ∧ s.view = .empty := by
  obtain ⟨hissue, rfl⟩ := new_eq_ok h
  have hroom : ¬ config.maxComponents < 2 := by
    unfold StateConfig.issue? at hissue
    split at hissue
    · contradiction
    · split at hissue
      · contradiction
      · assumption
  have hroom : 2 ≤ config.maxComponents.toNat := UInt32.not_lt.1 hroom
  obtain ⟨hentity, hworld⟩ := ComponentRegistry.info?_builtins hroom
  refine ⟨⟨EntityStore.sound_empty _, hentity, hworld, ?_⟩, ?_⟩
  · intro i archetype harchetype
    simp at harchetype
  · refine StorageView.ext ?_ rfl ?_ ?_
    · funext i
      exact EntityStore.slotAt_empty config.maxEntities i
    · funext a
      simp [view, StorageView.empty]
    · funext location c
      simp [view, StorageView.empty]

end Storage
end Lockstep
