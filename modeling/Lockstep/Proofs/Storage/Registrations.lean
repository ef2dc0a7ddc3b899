import Lockstep.Proofs.Storage.Admission
import Lockstep.Proofs.Storage.Effect

/-!
# Archetypes are laid out alike everywhere

The components of an archetype stand in the list it was registered with, in the array that
all archetypes share, in its column lookup and in the columns of its table.  These agree after
any calls, and with the layouts that the registry reports.  A registration that fails, at
whatever step, leaves nothing behind.
-/

namespace Lockstep

namespace Archetype

variable {archetype : Archetype} {c : ComponentId} {i : Nat}

theorem columnIndex_of_getElem? (hnodup : archetype.userComponents.Nodup)
    (hbuiltin : c.isBuiltin = false) (h : archetype.userComponents[i]? = some c) :
    archetype.columnIndex c = some (userColumn + i) := by
  obtain ⟨hentity, hworld⟩ : c ≠ .entity ∧ c ≠ .worldId := by
    simpa [ComponentId.isBuiltin] using hbuiltin
  obtain ⟨hlt, rfl⟩ := List.getElem?_eq_some_iff.1 h
  have hfound : archetype.userComponents.findIdx? (· == archetype.userComponents[i]) = some i := by
    refine List.findIdx?_eq_some_iff_getElem.2 ⟨hlt, beq_self_eq_true _, fun j hji => ?_⟩
    have hne := List.pairwise_iff_getElem.1 hnodup j i (hji.trans hlt) hlt hji
    simpa using hne
  rw [columnIndex, if_neg hentity, if_neg hworld, hfound, Option.map_some]

theorem columnIndex_eq_none (hentity : c ≠ .entity) (hworld : c ≠ .worldId)
    (h : c ∉ archetype.userComponents) : archetype.columnIndex c = none := by
  have hnone : archetype.userComponents.findIdx? (· == c) = none := by
    refine List.findIdx?_eq_none_iff.2 fun c' hc' => ?_
    have hne : c' ≠ c := fun heq => h (heq ▸ hc')
    simpa using hne
  rw [columnIndex, if_neg hentity, if_neg hworld, hnone, Option.map_none]

/-- The columns of the archetype are the built-in ones and then those of the components, each
with the layout that is registered. -/
structure LaidOut (archetype : Archetype) (registry : ComponentRegistry)
    (components : List ComponentId) : Prop where
  entity : archetype.columnIndex .entity = some entityColumn
  worldId : archetype.columnIndex .worldId = some worldIdColumn
  member : ∀ (i : Nat) c, components[i]? = some c → archetype.columnIndex c = some (userColumn + i)
  other : ∀ c, c ≠ .entity → c ≠ .worldId → c ∉ components → archetype.columnIndex c = none
  numColumns : archetype.table.columns.size = userColumn + components.length
  infos : ∀ c col, archetype.columnIndex c = some col → ∃ column,
    archetype.table.columns[col]? = some column ∧ registry.info? c = some column.info

end Archetype

namespace Table

variable {t : Table}

theorem size_columns_of_new {infos : List TypeInfo} {maxRows chunk : UInt32}
    (h : Table.new infos maxRows chunk = .ok t) : t.columns.size = infos.length := by
  unfold Table.new at h
  cases hcolumns : infos.mapM (Column.new · maxRows chunk) with
  | error fault => simp [hcolumns, bind, Except.bind] at h
  | ok columns =>
      obtain rfl : ⟨columns.toArray, 0, maxRows.toNat⟩ = t := by
        simpa [hcolumns, bind, Except.bind, pure, Except.pure] using h
      exact (mapM_ok hcolumns).length_eq.symm

end Table

namespace Storage

variable {s s' : Storage} {components : List ComponentId}

/-- The archetypes stay, with tables of as many columns, and none is added. -/
structure KeepsLayout (s s' : Storage) : Prop where
  config : s'.config = s.config
  pool : s'.archetypeComponents = s.archetypeComponents
  size : s'.archetypes.size = s.archetypes.size
  archetypes : ∀ (i : Nat) archetype, s.archetypes[i]? = some archetype → ∃ table,
    s'.archetypes[i]? = some { archetype with table } ∧
      table.columns.size = archetype.table.columns.size

namespace KeepsLayout

theorem of_eq (hconfig : s'.config = s.config) (hpool : s'.archetypeComponents =
    s.archetypeComponents) (harchetypes : s'.archetypes = s.archetypes) : s.KeepsLayout s' :=
  ⟨hconfig, hpool, congrArg _ harchetypes,
    fun _ archetype h => ⟨archetype.table, harchetypes ▸ h, rfl⟩⟩

theorem refl (s : Storage) : s.KeepsLayout s := of_eq rfl rfl rfl

theorem setTable {a : ArchetypeId} {archetype : Archetype} {table : Table}
    (h : s.archetype a = .ok archetype)
    (hsize : table.columns.size = archetype.table.columns.size) :
    s.KeepsLayout (s.setTable a table) := by
  refine ⟨rfl, rfl, Array.size_modify .., fun i found hfound => ?_⟩
  rw [archetypes_setTable (archetype_eq_ok.1 h)]
  split
  · rename_i hi
    subst hi
    obtain rfl := Option.some.inj ((archetype_eq_ok.1 h).symm.trans hfound)
    exact ⟨table, rfl, hsize⟩
  · exact ⟨found.table, hfound, rfl⟩

theorem setEntities (h : s.KeepsLayout s') (entities : EntityStore) :
    s.KeepsLayout { s' with entities } := ⟨h.config, h.pool, h.size, h.archetypes⟩

end KeepsLayout

theorem Effect.keepsLayout {call : StorageCall} (h : s.Effect call s')
    (hcall : ∀ components, call ≠ .registerArchetype components) : s.KeepsLayout s' := by
  cases h with
  | nothing => exact .refl s
  | registry => exact .of_eq rfl rfl rfl
  | archetype => exact absurd rfl (hcall _)
  | queries => exact .of_eq rfl rfl rfl
  | slots => exact .of_eq rfl rfl rfl
  | table found stays => exact (KeepsLayout.setTable found stays.columns).setEntities _

/-! ## Histories -/

/-- The storage has the archetypes that were registered, in that order, and no others. -/
structure HasArchetypes (config : StateConfig) (registered : List (ArchetypeId × List ComponentId))
    (s : Storage) : Prop where
  config_eq : s.config = config
  ids : registered.map (·.1.index) = List.range registered.length
  size : s.archetypes.size = registered.length
  pool : s.archetypeComponents.toList = registered.flatMap (·.2)
  room : s.archetypeComponents.size ≤ config.maxArchetypeComponents.toNat
  distinct : ∀ r ∈ registered, r.2.Nodup ∧ ∀ c ∈ r.2, c.isBuiltin = false
  archetypes : ∀ (k : Nat) r, registered[k]? = some r → ∃ archetype,
    s.archetypes[k]? = some archetype ∧ archetype.userComponents = r.2 ∧
      archetype.componentOffset = ((registered.take k).flatMap (·.2)).length ∧
      archetype.table.columns.size = Archetype.userColumn + r.2.length

namespace HasArchetypes

variable {config : StateConfig} {registered : List (ArchetypeId × List ComponentId)}

theorem of_new (h : Storage.new config = .ok s) : HasArchetypes config [] s := by
  obtain ⟨-, rfl⟩ := new_eq_ok h
  exact ⟨rfl, rfl, rfl, rfl, Nat.zero_le _, nofun, nofun⟩

theorem keep (h : HasArchetypes config registered s) (hkeeps : s.KeepsLayout s') :
    HasArchetypes config registered s' := by
  refine ⟨hkeeps.config.trans h.config_eq, h.ids, hkeeps.size.trans h.size, hkeeps.pool ▸ h.pool,
    hkeeps.pool ▸ h.room, h.distinct, fun k r hr => ?_⟩
  obtain ⟨archetype, harchetype, hcomponents, hoffset, hcolumns⟩ := h.archetypes k r hr
  obtain ⟨table, harchetype', hsize⟩ := hkeeps.archetypes k archetype harchetype
  exact ⟨_, harchetype', hcomponents, hoffset, hsize.trans hcolumns⟩

/-- A registration that succeeds puts the archetype after all others. -/
theorem add (h : HasArchetypes config registered s) {infos : List TypeInfo} {table : Table}
    (hadmissible : ¬ s.Inadmissible components)
    (hinfos : s.userInfos [] components = .ok infos)
    (htable : Table.new (Archetype.columnInfos infos) s.config.maxRowsPerTable
      s.config.numWorlds = .ok table) :
    HasArchetypes config (registered ++ [(⟨UInt32.ofNat s.archetypes.size⟩, components)]) { s with
      archetypes := s.archetypes.push ⟨s.archetypeComponents.size, components, table⟩
      archetypeComponents := s.archetypeComponents ++ components.toArray } := by
  obtain ⟨hnodup, hregistered, hall⟩ := admits_of_userInfos hinfos
  have hlength : components.length = infos.length := by
    simpa using congrArg List.length hregistered
  have hfull : s.archetypes.size < s.config.maxArchetypes.toNat :=
    Nat.lt_of_not_le fun hle => hadmissible (.archetypes hle)
  have hid : (UInt32.ofNat s.archetypes.size).toNat = s.archetypes.size :=
    UInt32.toNat_ofNat_of_lt' (hfull.trans s.config.maxArchetypes.toNat_lt)
  have hoffset : s.archetypeComponents.size = (registered.flatMap (·.2)).length := by
    rw [← h.pool, Array.length_toList]
  refine ⟨h.config_eq, ?_, ?_, ?_, ?_, ?_, fun k r hr => ?_⟩
  · rw [List.map_append, h.ids, List.length_append, List.length_singleton, List.range_succ,
      List.map_singleton, ArchetypeId.index, hid, h.size]
  · rw [Array.size_push, h.size, List.length_append, List.length_singleton]
  · simp [h.pool]
  · rw [Array.size_append, List.size_toArray, ← h.config_eq]
    exact Nat.le_of_not_lt fun hlt => hadmissible (.room hlt)
  · refine List.forall_mem_append.2 ⟨h.distinct, List.forall_mem_singleton.2 ⟨hnodup, ?_⟩⟩
    exact fun c hc => (hall c hc).2
  · rcases Nat.lt_or_ge k registered.length with hlt | hge
    · rw [List.getElem?_append_left hlt] at hr
      obtain ⟨archetype, harchetype, hcomponents, hoffset, hcolumns⟩ := h.archetypes k r hr
      refine ⟨archetype, ?_, hcomponents, ?_, hcolumns⟩
      · have hk : k ≠ s.archetypes.size := (h.size ▸ hlt).ne
        rw [Array.getElem?_push, if_neg hk, harchetype]
      · rw [List.take_append_of_le_length hlt.le, hoffset]
    · obtain rfl : k = registered.length := by
        have hk := (List.getElem?_eq_some_iff.1 hr).1
        rw [List.length_append, List.length_singleton] at hk
        exact Nat.le_antisymm (Nat.le_of_lt_succ hk) hge
      rw [List.getElem?_concat_length] at hr
      obtain rfl := Option.some.inj hr
      refine ⟨⟨s.archetypeComponents.size, components, table⟩, ?_, rfl, ?_, ?_⟩
      · rw [Array.getElem?_push, if_pos h.size.symm]
      · rw [List.take_left, hoffset]
      · rw [Table.size_columns_of_new htable, hlength]
        exact Nat.add_comm infos.length Archetype.userColumn

theorem perform (h : HasArchetypes config registered s) (call : StorageCall) :
    HasArchetypes config (registered ++ registrations [⟨call, (s.perform call).1⟩])
      (s.perform call).2 := by
  cases call with
  | registerArchetype components =>
      have hregisters := s.registers components
      generalize (s.perform (.registerArchetype components)).1 = answer at hregisters
      generalize (s.perform (.registerArchetype components)).2 = s' at hregisters
      cases hregisters with
      | refuses | faults =>
          rw [registrations, List.filterMap_cons_none rfl, List.filterMap_nil, List.append_nil]
          exact h
      | adds hadmissible hinfos htable => exact h.add hadmissible hinfos htable
  | _ =>
      rw [registrations, List.filterMap_cons_none rfl, List.filterMap_nil, List.append_nil]
      exact h.keep ((s.effect _).keepsLayout nofun)

theorem after (h : HasArchetypes config registered s) (calls : List StorageCall) :
    HasArchetypes config (registered ++ registrations (s.exchanges calls)) (s.after calls) := by
  induction calls generalizing s registered with
  | nil =>
      rw [exchanges, registrations, List.filterMap_nil, List.append_nil]
      exact h
  | cons call calls ih =>
      have hrest := ih (h.perform call)
      rw [registrations, registrations, List.append_assoc, ← List.filterMap_append] at hrest
      exact hrest

/-- Where an archetype stands in the shared array, its components are found. -/
theorem componentsOf (h : HasArchetypes config registered s) {k : Nat} {id : ArchetypeId}
    (hr : registered[k]? = some (id, components)) (hid : id.index = k) :
    s.componentsOf id = .ok components := by
  obtain ⟨archetype, harchetype, hcomponents, hoffset, -⟩ := h.archetypes k _ hr
  obtain ⟨hlt, hget⟩ := List.getElem?_eq_some_iff.1 hr
  have hpool : s.archetypeComponents.toList =
      (registered.take k).flatMap (·.2) ++
        (components ++ (registered.drop (k + 1)).flatMap (·.2)) := by
    rw [h.pool]
    conv_lhs => rw [← List.take_append_drop k registered, List.drop_eq_getElem_cons hlt]
    rw [List.flatMap_append, List.flatMap_cons, hget]
  have hextract : (s.archetypeComponents.extract archetype.componentOffset
      (archetype.componentOffset + archetype.userComponents.length)).toList = components := by
    rw [Array.toList_extract, List.extract_eq_take_drop, Nat.add_sub_cancel_left, hpool, hoffset,
      hcomponents, List.drop_left, List.take_left]
  have hfound : s.archetype id = .ok archetype := archetype_eq_ok.2 (hid ▸ harchetype)
  rw [Storage.componentsOf, hfound]
  exact congrArg Except.ok hextract

theorem laidOut (h : HasArchetypes config registered s) (hs : s.WellFormed) {k : Nat}
    {r : ArchetypeId × List ComponentId} (hr : registered[k]? = some r) :
    ∃ archetype, s.archetypes[k]? = some archetype ∧
      archetype.componentOffset = ((registered.take k).map (·.2.length)).sum ∧
      archetype.LaidOut s.registry r.2 := by
  obtain ⟨archetype, harchetype, hcomponents, hoffset, hcolumns⟩ := h.archetypes k r hr
  obtain ⟨hnodup, hbuiltin⟩ := h.distinct r (List.mem_of_getElem? hr)
  refine ⟨archetype, harchetype, hoffset.trans List.length_flatMap,
    Archetype.columnIndex_entity, Archetype.columnIndex_worldId, fun i c hc => ?_,
    fun c hentity hworld hc => ?_, hcolumns, fun c col hcol => ?_⟩
  · exact Archetype.columnIndex_of_getElem? (hcomponents ▸ hnodup)
      (hbuiltin c (List.mem_of_getElem? hc)) (hcomponents ▸ hc)
  · exact Archetype.columnIndex_eq_none hentity hworld (hcomponents ▸ hc)
  · obtain ⟨column, hcolumn, hinfo, -⟩ := (hs.archetypes k archetype harchetype).column c col hcol
    exact ⟨column, hcolumn, hinfo⟩

end HasArchetypes

/-- After any calls each archetype has the components it was registered with, in the array that
all archetypes share and in the columns of its table, where they have the layouts that are
registered now.  Identifiers go up by one with each archetype, and the array stays within its
bound.  A registration is refused exactly when there is a reason, it faults exactly when there is
none but a column cannot be made, and either way it leaves nothing behind. -/
theorem archetypes_laid_out {config : StateConfig} (hnew : Storage.new config = .ok s)
    (calls : List StorageCall) :
    let s' := s.after calls
    let registered := registrations (s.exchanges calls)
    s'.config = config ∧
    registered.map (·.1.index) = List.range registered.length ∧
    s'.archetypes.size = registered.length ∧
    s'.archetypeComponents.size ≤ config.maxArchetypeComponents.toNat ∧
    (∀ (k : Nat) id components, registered[k]? = some (id, components) →
      s'.componentsOf id = .ok components ∧
      ∃ archetype, s'.archetype id = .ok archetype ∧
        archetype.componentOffset = ((registered.take k).map (·.2.length)).sum ∧
        archetype.LaidOut s'.registry components) ∧
    (∀ components,
      ((∃ e, (s'.perform (.registerArchetype components)).1 = .refused e) ↔
        s'.Inadmissible components) ∧
      ((∃ fault, (s'.perform (.registerArchetype components)).1 = .faulted fault) ↔
        ¬ s'.Inadmissible components ∧
          ∃ c ∈ ComponentId.entity :: .worldId :: components, s'.Unmakeable c) ∧
      (∀ e s'', registerArchetypeSteps components s' = .ok (.error e) s'' → s'' = s') ∧
      ∀ fault s'', registerArchetypeSteps components s' = .error fault s'' → s'' = s') ∧
    ∀ call : StorageCall, call.isRegistration = true → (s'.perform call).1.isFailure = true →
      (s'.perform call).2 = s' := by
  intro s' registered
  have hhas : HasArchetypes config registered s' := (HasArchetypes.of_new hnew).after calls
  have hs : s'.WellFormed := wellFormed_after (wellFormed_of_new hnew).1 calls
  refine ⟨hhas.config_eq, hhas.ids, hhas.size, hhas.room, fun k id components hr => ?_,
    fun components => ⟨s'.registerArchetype_refused_iff components,
      registerArchetype_faulted_iff hs components, fun e s'' hsteps => ?_,
      fun fault s'' hsteps => ?_⟩, fun call => perform_of_failure⟩
  · have hid : id.index = k := by
      have hids := congrArg (·[k]?) hhas.ids
      rw [List.getElem?_map, hr, List.getElem?_range (List.getElem?_eq_some_iff.1 hr).1] at hids
      exact Option.some.inj hids
    obtain ⟨archetype, harchetype, hoffset, hlaid⟩ := hhas.laidOut hs hr
    exact ⟨hhas.componentsOf hr hid, archetype, archetype_eq_ok.2 (hid ▸ harchetype), hoffset,
      hlaid⟩
  · rw [registerArchetypeSteps_eq] at hsteps
    split at hsteps <;> cases hsteps
    rfl
  · rw [registerArchetypeSteps_eq] at hsteps
    split at hsteps <;> cases hsteps
    rfl

namespace Registered

def config : StateConfig where
  numWorlds := 1
  maxRowsPerTable := 4294967295
  maxComponents := 5
  maxArchetypes := 2
  maxArchetypeComponents := 3
  maxQueryData := 0
  maxEntities := 0

def storage : Storage := ⟨config, .builtins 5, #[], #[], .empty 0, .empty 0⟩

theorem storage_eq : Storage.new config = .ok storage := rfl

/-- A list with a repeated component is refused, and one whose column is too large faults. -/
def calls : List StorageCall :=
  [.registerComponent ⟨4, 4⟩, .registerArchetype [⟨2⟩], .registerArchetype [⟨2⟩, ⟨2⟩],
    .registerComponent ⟨1, 4294967295⟩, .registerArchetype [⟨3⟩], .registerComponent ⟨2, 2⟩,
    .registerArchetype [⟨4⟩, ⟨2⟩]]

end Registered

theorem archetypes_laid_out_sample :
    let s' := Registered.storage.after Registered.calls
    s'.componentsOf ⟨1⟩ = .ok [⟨4⟩, ⟨2⟩] ∧ ∃ archetype, s'.archetype ⟨1⟩ = .ok archetype ∧
      archetype.componentOffset = 1 ∧ archetype.LaidOut s'.registry [⟨4⟩, ⟨2⟩] := by
  intro s'
  obtain ⟨-, -, -, -, hlayout, -⟩ := archetypes_laid_out Registered.storage_eq Registered.calls
  have hregistered : registrations (Registered.storage.exchanges Registered.calls) =
      [(⟨0⟩, [⟨2⟩]), (⟨1⟩, [⟨4⟩, ⟨2⟩])] := by decide +kernel
  rw [hregistered] at hlayout
  exact hlayout 1 ⟨1⟩ [⟨4⟩, ⟨2⟩] rfl

end Storage
end Lockstep
