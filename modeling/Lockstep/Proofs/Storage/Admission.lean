import Lockstep.Proofs.Word
import Lockstep.Proofs.Storage.Simulation
import Lockstep.Storage.Registration

/-!
# Admission of archetypes

A list of components is checked before anything is made of it.  The check refuses exactly the
lists that there is a reason to refuse, and a table that cannot be made stops the registration
before the storage changes.
-/

namespace Lockstep

namespace Table

theorem mapM_error {α β : Type} {f : α → Except Fault β} {l : List α} {fault : Fault}
    (h : l.mapM f = .error fault) : ∃ a ∈ l, ∃ fault', f a = .error fault' := by
  induction l with
  | nil => contradiction
  | cons a l ih =>
      cases ha : f a with
      | error fault' => exact ⟨a, List.mem_cons_self, fault', ha⟩
      | ok b =>
          cases hl : l.mapM f with
          | ok bs => simp [List.mapM_cons, ha, hl, bind, Except.bind, pure, Except.pure] at h
          | error fault' =>
              obtain rfl : fault' = fault := by
                simpa [List.mapM_cons, ha, hl, bind, Except.bind] using h
              obtain ⟨a', ha', hfault⟩ := ih hl
              exact ⟨a', List.mem_cons_of_mem _ ha', hfault⟩

/-- A table cannot be made exactly when one of its columns cannot. -/
theorem new_error_iff {infos : List TypeInfo} {maxRows chunk : UInt32} :
    (∃ fault, Table.new infos maxRows chunk = .error fault) ↔
      ∃ info ∈ infos, ∃ fault, Column.new info maxRows chunk = .error fault := by
  unfold Table.new
  cases hcolumns : infos.mapM (Column.new · maxRows chunk) with
  | error fault => exact ⟨fun _ => mapM_error hcolumns, fun _ => ⟨fault, rfl⟩⟩
  | ok columns =>
      constructor
      · rintro ⟨fault, h⟩
        contradiction
      · rintro ⟨info, hinfo, fault, h⟩
        obtain ⟨i, hlt, rfl⟩ := List.getElem_of_mem hinfo
        obtain ⟨hlength, hmade⟩ := List.forall₂_iff_get.1 (mapM_ok hcolumns)
        have hok := hmade i hlt (hlength ▸ hlt)
        rw [List.get_eq_getElem, h] at hok
        contradiction

end Table

namespace Storage

variable {s : Storage} {components : List ComponentId}

theorem admits_of_userInfos {seen : List ComponentId} {infos : List TypeInfo}
    (h : s.userInfos seen components = .ok infos) :
    components.Nodup ∧ components.map s.registry.info? = infos.map some ∧
      ∀ c ∈ components, c ∉ seen ∧ c.isBuiltin = false := by
  induction components generalizing seen infos with
  | nil =>
      obtain rfl := Except.ok.inj h
      exact ⟨.nil, rfl, nofun⟩
  | cons c rest ih =>
      unfold userInfos at h
      split at h
      · contradiction
      · rename_i hfirst
        obtain ⟨hbuiltin, hseen⟩ : c.isBuiltin = false ∧ c ∉ seen := by simpa using hfirst
        split at h
        · contradiction
        · rename_i info hinfo
          cases hrest : s.userInfos (c :: seen) rest with
          | error e => simp [hrest, bind, Except.bind] at h
          | ok infos' =>
              rw [hrest] at h
              obtain rfl := Except.ok.inj h
              obtain ⟨hnodup, hinfos, hall⟩ := ih hrest
              have hnew : c ∉ rest := fun hmem => (hall c hmem).1 List.mem_cons_self
              refine ⟨List.nodup_cons.2 ⟨hnew, hnodup⟩, by simp [hinfo, hinfos], ?_⟩
              refine List.forall_mem_cons.2 ⟨⟨hseen, hbuiltin⟩, fun c' hc' => ?_⟩
              exact (hall c' hc').imp_left fun hseen' hmem =>
                hseen' (List.mem_cons_of_mem _ hmem)

theorem isRegistered_of_userInfos {c : ComponentId} {infos : List TypeInfo}
    (h : components.map s.registry.info? = infos.map some) (hc : c ∈ components) :
    s.registry.isRegistered c = true := by
  have hinfo : s.registry.info? c ∈ infos.map some := h ▸ List.mem_map_of_mem hc
  obtain ⟨info, -, hinfo⟩ := List.mem_map.1 hinfo
  rw [ComponentRegistry.isRegistered, ← hinfo, Option.isSome_some]

theorem exists_of_userInfos_error {seen : List ComponentId} {e : StorageError}
    (h : s.userInfos seen components = .error e) :
    ¬ components.Nodup ∨ ∃ c ∈ components,
      c ∈ seen ∨ c.isBuiltin = true ∨ s.registry.isRegistered c = false := by
  induction components generalizing seen e with
  | nil => contradiction
  | cons c rest ih =>
      unfold userInfos at h
      split at h
      · rename_i hfirst
        rcases Bool.or_eq_true_iff.1 hfirst with hbuiltin | hseen
        · exact .inr ⟨c, List.mem_cons_self, .inr (.inl hbuiltin)⟩
        · exact .inr ⟨c, List.mem_cons_self, .inl (by simpa using hseen)⟩
      · split at h
        · rename_i hinfo
          refine .inr ⟨c, List.mem_cons_self, .inr (.inr ?_)⟩
          rw [ComponentRegistry.isRegistered, hinfo, Option.isSome_none]
        · cases hrest : s.userInfos (c :: seen) rest with
          | ok infos => simp [hrest, bind, Except.bind, pure, Except.pure] at h
          | error e' =>
              rcases ih hrest with hrepeated | ⟨c', hc', hreason⟩
              · exact .inl fun hnodup => hrepeated (List.nodup_cons.1 hnodup).2
              · by_cases hsame : c' = c
                · subst hsame
                  exact .inl fun hnodup => (List.nodup_cons.1 hnodup).1 hc'
                · have hreason := hreason.imp_left (List.mem_of_ne_of_mem hsame)
                  exact .inr ⟨c', List.mem_cons_of_mem _ hc', hreason⟩

/-- The check refuses a list exactly when there is a reason to. -/
theorem checkArchetype_error_iff :
    (∃ e, s.checkArchetype components = .error e) ↔ s.Inadmissible components := by
  unfold checkArchetype
  constructor
  · rintro ⟨e, h⟩
    split at h
    · rename_i harchetypes
      exact .archetypes harchetypes
    · split at h
      · rename_i hroom
        exact .room hroom
      · rcases exists_of_userInfos_error h with hrepeated | ⟨c, hc, hseen | hbuiltin | hunknown⟩
        · exact .repeated hrepeated
        · contradiction
        · exact .builtin hc hbuiltin
        · exact .unregistered hc hunknown
  · intro h
    by_cases harchetypes : s.config.maxArchetypes.toNat ≤ s.archetypes.size
    · exact ⟨_, if_pos harchetypes⟩
    · rw [if_neg harchetypes]
      by_cases hroom : s.config.maxArchetypeComponents.toNat
          < s.archetypeComponents.size + components.length
      · exact ⟨_, if_pos hroom⟩
      · rw [if_neg hroom]
        cases hinfos : s.userInfos [] components with
        | error e => exact ⟨e, rfl⟩
        | ok infos =>
            obtain ⟨hnodup, hregistered, hall⟩ := admits_of_userInfos hinfos
            exfalso
            cases h with
            | archetypes h => exact harchetypes h
            | room h => exact hroom h
            | builtin hc h => exact absurd ((hall _ hc).2.symm.trans h) Bool.false_ne_true
            | repeated h => exact h hnodup
            | unregistered hc h =>
                exact absurd (h.symm.trans (isRegistered_of_userInfos hregistered hc))
                  Bool.false_ne_true

/-- What the registration of an archetype does. -/
inductive Registers (s : Storage) (components : List ComponentId) :
    StorageAnswer → Storage → Prop
  | refuses {e : StorageError} (h : s.Inadmissible components) :
      Registers s components (.refused e) s
  | faults {infos : List TypeInfo} {fault : Fault} (h : ¬ s.Inadmissible components)
      (hinfos : s.userInfos [] components = .ok infos)
      (htable : Table.new (Archetype.columnInfos infos) s.config.maxRowsPerTable
        s.config.numWorlds = .error fault) :
      Registers s components (.faulted fault) s
  | adds {infos : List TypeInfo} {table : Table} (h : ¬ s.Inadmissible components)
      (hinfos : s.userInfos [] components = .ok infos)
      (htable : Table.new (Archetype.columnInfos infos) s.config.maxRowsPerTable
        s.config.numWorlds = .ok table) :
      Registers s components (.archetype ⟨UInt32.ofNat s.archetypes.size⟩) { s with
        archetypes := s.archetypes.push ⟨s.archetypeComponents.size, components, table⟩
        archetypeComponents := s.archetypeComponents ++ components.toArray }

theorem registers (s : Storage) (components : List ComponentId) :
    s.Registers components (s.perform (.registerArchetype components)).1
      (s.perform (.registerArchetype components)).2 := by
  rw [perform_registerArchetype, registerArchetype]
  cases hcheck : s.checkArchetype components with
  | error e => exact .refuses (checkArchetype_error_iff.1 ⟨e, hcheck⟩)
  | ok infos =>
      have hadmissible : ¬ s.Inadmissible components := by
        rw [← checkArchetype_error_iff, hcheck]
        rintro ⟨e, h⟩
        contradiction
      have hinfos := userInfos_of_checkArchetype hcheck
      dsimp only
      cases htable : Table.new (Archetype.columnInfos infos) s.config.maxRowsPerTable
          s.config.numWorlds with
      | error fault => exact .faults hadmissible hinfos htable
      | ok table => exact .adds hadmissible hinfos htable

theorem lift_ok_apply {α : Type} (a : α) (s : Storage) :
    (lift (.ok a) : EStateM Fault Storage α) s = .ok a s := rfl

theorem lift_error_apply {α : Type} (fault : Fault) (s : Storage) :
    (lift (.error fault) : EStateM Fault Storage α) s = .error fault s := rfl

/-- The steps together do what the registration does.  A table that cannot be made stops
them before the storage changes. -/
theorem registerArchetypeSteps_eq (s : Storage) (components : List ComponentId) :
    registerArchetypeSteps components s =
      match s.registerArchetype components with
      | .ok (.ok (id, s')) => .ok (.ok id) s'
      | .ok (.error e) => .ok (.error e) s
      | .error fault => .error fault s := by
  rw [registerArchetype]
  cases hcheck : s.checkArchetype components with
  | error e =>
      simp [registerArchetypeSteps, hcheck, get_apply, bind, EStateM.bind, pure, EStateM.pure]
  | ok infos =>
      cases htable : Table.new (Archetype.columnInfos infos) s.config.maxRowsPerTable
          s.config.numWorlds with
      | error fault =>
          simp [registerArchetypeSteps, hcheck, htable, get_apply, lift_error_apply, bind,
            Except.bind, EStateM.bind]
      | ok table =>
          simp [registerArchetypeSteps, hcheck, htable, get_apply, lift_ok_apply, modify_apply,
            bind, Except.bind, EStateM.bind, pure, EStateM.pure, Except.pure]

/-! ## Failures -/

/-- No memory layout describes the column of the component. -/
def Unmakeable (s : Storage) (c : ComponentId) : Prop :=
  ∃ info fault, s.registry.info? c = some info ∧
    Column.new info s.config.maxRowsPerTable s.config.numWorlds = .error fault

theorem unmakeable_iff (hs : s.WellFormed) {infos : List TypeInfo}
    (hinfos : s.userInfos [] components = .ok infos) :
    (∃ c ∈ ComponentId.entity :: .worldId :: components, s.Unmakeable c) ↔
      ∃ info ∈ Archetype.columnInfos infos, ∃ fault,
        Column.new info s.config.maxRowsPerTable s.config.numWorlds = .error fault := by
  obtain ⟨-, hregistered, -⟩ := admits_of_userInfos hinfos
  have hall : (ComponentId.entity :: .worldId :: components).map s.registry.info? =
      (Archetype.columnInfos infos).map some := by
    simp [Archetype.columnInfos, hs.entityInfo, hs.worldIdInfo, hregistered]
  constructor
  · rintro ⟨c, hc, info, fault, hinfo, hfault⟩
    have hmem : some info ∈ (Archetype.columnInfos infos).map some :=
      hall ▸ hinfo ▸ List.mem_map_of_mem hc
    obtain ⟨info', hinfo', heq⟩ := List.mem_map.1 hmem
    exact ⟨info, Option.some.inj heq ▸ hinfo', fault, hfault⟩
  · rintro ⟨info, hinfo, fault, hfault⟩
    have hmem : some info ∈ (ComponentId.entity :: .worldId :: components).map s.registry.info? :=
      hall ▸ List.mem_map_of_mem hinfo
    obtain ⟨c, hc, heq⟩ := List.mem_map.1 hmem
    exact ⟨c, hc, info, fault, heq, hfault⟩

theorem registerArchetype_faulted_iff (hs : s.WellFormed) (components : List ComponentId) :
    (∃ fault, (s.perform (.registerArchetype components)).1 = .faulted fault) ↔
      ¬ s.Inadmissible components ∧
        ∃ c ∈ ComponentId.entity :: .worldId :: components, s.Unmakeable c := by
  have hregisters := s.registers components
  generalize (s.perform (.registerArchetype components)).1 = answer at hregisters
  generalize (s.perform (.registerArchetype components)).2 = s' at hregisters
  cases hregisters with
  | refuses h => exact ⟨fun ⟨_, hanswer⟩ => (nomatch hanswer), fun hboth => absurd h hboth.1⟩
  | faults h hinfos htable =>
      rw [unmakeable_iff hs hinfos, ← Table.new_error_iff]
      exact ⟨fun _ => ⟨h, _, htable⟩, fun _ => ⟨_, rfl⟩⟩
  | adds h hinfos htable =>
      rw [unmakeable_iff hs hinfos, ← Table.new_error_iff]
      refine ⟨fun ⟨_, hanswer⟩ => (nomatch hanswer), ?_⟩
      rintro ⟨-, fault, hfault⟩
      rw [htable] at hfault
      contradiction

theorem registerArchetype_refused_iff (s : Storage) (components : List ComponentId) :
    (∃ e, (s.perform (.registerArchetype components)).1 = .refused e) ↔
      s.Inadmissible components := by
  have hregisters := s.registers components
  generalize (s.perform (.registerArchetype components)).1 = answer at hregisters
  generalize (s.perform (.registerArchetype components)).2 = s' at hregisters
  cases hregisters with
  | refuses h => exact ⟨fun _ => h, fun _ => ⟨_, rfl⟩⟩
  | faults h => exact ⟨fun ⟨_, hanswer⟩ => (nomatch hanswer), fun hboth => absurd hboth h⟩
  | adds h => exact ⟨fun ⟨_, hanswer⟩ => (nomatch hanswer), fun hboth => absurd hboth h⟩

/-- A registration that fails leaves the storage as it was. -/
theorem perform_of_failure {call : StorageCall} (hcall : call.isRegistration = true)
    (hfailure : (s.perform call).1.isFailure = true) : (s.perform call).2 = s := by
  cases call with
  | registerComponent info =>
      rw [perform_registerComponent] at hfailure ⊢
      split at hfailure <;> trivial
  | registerComponentWithId id info =>
      rw [perform_registerComponentWithId] at hfailure ⊢
      split at hfailure <;> trivial
  | registerComponentType type =>
      rw [perform_registerComponentType] at hfailure ⊢
      split at hfailure <;> trivial
  | registerArchetype components =>
      have hregisters := s.registers components
      generalize (s.perform (.registerArchetype components)).1 = answer at hregisters hfailure
      generalize (s.perform (.registerArchetype components)).2 = s' at hregisters ⊢
      cases hregisters with
      | refuses | faults => rfl
      | adds => contradiction
  | _ => contradiction

end Storage
end Lockstep
