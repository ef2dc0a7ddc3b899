import Lockstep.Proofs.Storage.Admission
import Lockstep.Proofs.Storage.Requests
import Lockstep.Storage.Reference
import Mathlib.Algebra.BigOperators.Group.Finset.Basic
import Mathlib.Algebra.Order.BigOperators.Group.Finset

/-!
# Row counts

The archetypes of a storage, and the rows of each, are as many as 32-bit words count.  The
matches of a query name no archetype twice, so the rows of all of them together are as many as
64-bit words count.
-/

namespace Lockstep

namespace Exact

variable {components : List ComponentId} {archetypes : List Archetype} {found : List QueryMatch}

theorem nodup (h : Exact components archetypes found) :
    (found.map QueryMatch.archetype).Nodup :=
  h.ascending.imp Nat.ne_of_lt

theorem lt_size {first s : Storage} (h : Exact components first.archetypes.toList found)
    (hextends : first.Extends s) :
    ∀ i ∈ (found.map QueryMatch.archetype).toFinset, i < s.archetypes.size := by
  intro i hi
  obtain ⟨archetype, harchetype, -⟩ := (h.mem_iff i).1 (List.mem_toFinset.1 hi)
  rw [Array.getElem?_toList] at harchetype
  obtain ⟨archetype', harchetype', -⟩ := hextends i archetype harchetype
  exact (Array.getElem?_eq_some_iff.1 harchetype').1

end Exact

namespace Storage

variable {config : StateConfig} {s s' : Storage} {ref : QueryRef} {a : ArchetypeId}
  {archetype : Archetype}

/-- The storage keeps to the limits of its configuration. -/
structure Limited (config : StateConfig) (s : Storage) : Prop where
  config_eq : s.config = config
  size_le : s.archetypes.size ≤ config.maxArchetypes.toNat
  maxRows : ∀ (i : Nat) archetype, s.archetypes[i]? = some archetype →
    archetype.table.maxRows = config.maxRowsPerTable.toNat
  numRows_le : ∀ (i : Nat) archetype, s.archetypes[i]? = some archetype →
    archetype.table.numRows ≤ archetype.table.maxRows

namespace Limited

theorem of_new (h : Storage.new config = .ok s) : Limited config s := by
  obtain ⟨-, rfl⟩ := new_eq_ok h
  exact ⟨rfl, Nat.zero_le _, nofun, nofun⟩

theorem of_eq (h : Limited config s) (hconfig : s'.config = s.config)
    (harchetypes : s'.archetypes = s.archetypes) : Limited config s' :=
  ⟨hconfig.trans h.config_eq, harchetypes ▸ h.size_le, harchetypes ▸ h.maxRows,
    harchetypes ▸ h.numRows_le⟩

theorem setTable (h : Limited config s) (ha : s.archetype a = .ok archetype) {table : Table}
    (hstays : archetype.table.StaysWithin table) : Limited config (s.setTable a table) := by
  have harchetype := archetype_eq_ok.1 ha
  refine ⟨h.config_eq, (Array.size_modify ..).trans_le h.size_le, fun i found hfound => ?_,
    fun i found hfound => ?_⟩
  · rw [archetypes_setTable harchetype] at hfound
    split at hfound
    · obtain rfl := Option.some.inj hfound
      exact hstays.maxRows.trans (h.maxRows _ _ harchetype)
    · exact h.maxRows i found hfound
  · rw [archetypes_setTable harchetype] at hfound
    split at hfound
    · obtain rfl := Option.some.inj hfound
      exact (hstays.numRows_le (h.numRows_le _ _ harchetype)).trans_eq hstays.maxRows.symm
    · exact h.numRows_le i found hfound

/-- A registration makes a table of its own, and there is room for it. -/
theorem register (h : Limited config s) (components : List ComponentId) :
    Limited config (s.perform (.registerArchetype components)).2 := by
  have hregisters := s.registers components
  generalize (s.perform (.registerArchetype components)).1 = answer at hregisters
  generalize (s.perform (.registerArchetype components)).2 = s' at hregisters ⊢
  cases hregisters with
  | refuses | faults => exact h
  | adds hadmissible _ htable =>
      have hlt : s.archetypes.size < s.config.maxArchetypes.toNat :=
        Nat.lt_of_not_le fun hle => hadmissible (.archetypes hle)
      obtain ⟨hrows, hmax, -⟩ := Table.new_cases htable
      refine ⟨h.config_eq, ?_, fun i found hfound => ?_, fun i found hfound => ?_⟩
      · rw [Array.size_push, ← h.config_eq]
        exact hlt
      · rw [Array.getElem?_push] at hfound
        split at hfound
        · obtain rfl := Option.some.inj hfound
          exact hmax.trans (by rw [h.config_eq])
        · exact h.maxRows i found hfound
      · rw [Array.getElem?_push] at hfound
        split at hfound
        · obtain rfl := Option.some.inj hfound
          exact hrows.trans_le (Nat.zero_le _)
        · exact h.numRows_le i found hfound

theorem effect (h : Limited config s) {call : StorageCall} (heffect : s.Effect call s')
    (hcall : ∀ components, call ≠ .registerArchetype components) : Limited config s' := by
  cases heffect with
  | nothing => exact h
  | registry | queries | slots => exact h.of_eq rfl rfl
  | archetype => exact absurd rfl (hcall _)
  | table found stays => exact (h.setTable found stays).of_eq rfl rfl

theorem perform (h : Limited config s) (call : StorageCall) :
    Limited config (s.perform call).2 := by
  cases call with
  | registerArchetype components => exact h.register components
  | _ => exact h.effect (s.effect _) nofun

theorem rowsAt_lt (h : Limited config s) (i : Nat) : s.rowsAt i < 2 ^ 32 := by
  rw [rowsAt]
  cases harchetype : s.archetypes[i]? with
  | none => decide
  | some archetype =>
      calc
        archetype.table.numRows ≤ archetype.table.maxRows := h.numRows_le i archetype harchetype
        _ = config.maxRowsPerTable.toNat := h.maxRows i archetype harchetype
        _ < 2 ^ 32 := config.maxRowsPerTable.toNat_lt

/-- Each archetype is counted once, so the sum has room in 64 bits. -/
theorem sum_rowsAt_lt (h : Limited config s) {indices : Finset Nat}
    (hindices : ∀ i ∈ indices, i < s.archetypes.size) :
    ∑ i ∈ indices, s.rowsAt i < 2 ^ 64 := by
  have hsubset : indices ⊆ Finset.range s.archetypes.size := fun i hi =>
    Finset.mem_range.2 (hindices i hi)
  have hcard : indices.card < 2 ^ 32 := by
    calc
      indices.card ≤ s.archetypes.size := by
        simpa using Finset.card_le_card hsubset
      _ ≤ config.maxArchetypes.toNat := h.size_le
      _ < 2 ^ 32 := config.maxArchetypes.toNat_lt
  calc
    ∑ i ∈ indices, s.rowsAt i ≤ indices.card * (2 ^ 32 - 1) :=
      Finset.sum_le_card_nsmul _ _ _ fun i _ => Nat.le_sub_one_of_lt (h.rowsAt_lt i)
    _ < 2 ^ 64 := by omega

end Limited

/-- A reference that is resolved stands for matches that were found in the storage. -/
def Answers (s : Storage) (ref : QueryRef) : Prop :=
  ∀ resolved, ref.resolved? = some resolved →
    ∃ first components, Recalls first s components resolved

theorem Answers.keep (h : s.Answers ref) {words : List Nat} (harchetypes : s.Extends s')
    (hdata : s'.queries.data.toList = s.queries.data.toList ++ words) : s'.Answers ref := by
  intro resolved hresolved
  obtain ⟨first, components, hrecalls⟩ := h resolved hresolved
  exact ⟨first, components, hrecalls.keep harchetypes hdata⟩

theorem Answers.keeps (h : s.Answers ref) (hkeeps : s.Keeps s') : s'.Answers ref := by
  have hdata : s'.queries.data.toList = s.queries.data.toList ++ [] := by
    rw [hkeeps.queries, List.append_nil]
  exact h.keep hkeeps.archetypes hdata

theorem Answers.perform (h : s.Answers ref) (call : StorageCall) :
    (s.perform call).2.Answers ref := by
  cases call with
  | makeQuery components other =>
      have hrequest := s.requested components other
      generalize (s.perform (.makeQuery components other)).1 = answer at hrequest
      generalize (s.perform (.makeQuery components other)).2 = s' at hrequest ⊢
      cases hrequest with
      | stays | recalls => exact h
      | @refuses _ queries _ hdata =>
          have hsame : queries.data.toList = s.queries.data.toList ++ [] := by
            rw [hdata, List.append_nil]
          exact h.keep (.refl s) hsame
      | learns _ _ hdata => exact h.keep (.refl s) hdata
  | _ => exact h.keeps (s.keeps_perform _ rfl)

theorem Answers.request {memo : List ComponentId → Option Storage} (h : s.Answers ref)
    (hlearned : Learned memo s) (components : List ComponentId) :
    (s.makeQuery components ref).2.2.Answers (s.makeQuery components ref).2.1 := by
  have hafter := h.perform (.makeQuery components ref)
  have hrequest := s.requested components ref
  rw [perform_makeQuery] at hafter hrequest
  generalize s.makeQuery components ref = made at hafter hrequest ⊢
  obtain ⟨result, ref', s'⟩ := made
  cases hrequest with
  | stays | refuses => exact hafter
  | @recalls resolved _ hit =>
      intro resolved' hresolved
      obtain rfl := QueryRef.eq_of_resolved?_publish hresolved
      obtain ⟨first, -, hrecalls⟩ := hlearned.known components _ hit
      exact ⟨first, components, hrecalls⟩
  | learns _ _ _ _ hcomponents stores =>
      intro resolved' hresolved
      obtain rfl := QueryRef.eq_of_resolved?_publish hresolved
      exact ⟨s, components, hcomponents, (stores hlearned.bounded).2, .refl s⟩

/-! ## Reachable storages -/

theorem ReachableWith.limited (h : ReachableWith config s ref) : Limited config s := by
  induction h with
  | new h => exact .of_new h
  | call _ call ih => exact ih.perform call
  | @request s ref _ components ih => exact ih.perform (.makeQuery components ref)
  | table _ ha call ih => exact ih.setTable ha (Table.staysWithin_perform _ call)

theorem ReachableWith.learned (h : ReachableWith config s ref) : ∃ memo, Learned memo s := by
  induction h with
  | new h => exact ⟨_, learned_of_new h⟩
  | call _ call ih =>
      obtain ⟨memo, hlearned⟩ := ih
      exact ⟨_, hlearned.perform call⟩
  | @request s ref _ components ih =>
      obtain ⟨memo, hlearned⟩ := ih
      exact ⟨_, hlearned.perform (.makeQuery components ref)⟩
  | table _ ha call ih =>
      obtain ⟨memo, hlearned⟩ := ih
      exact ⟨memo, hlearned.keeps (.setTable _ _ _)⟩

theorem ReachableWith.answers (h : ReachableWith config s ref) : s.Answers ref := by
  induction h with
  | new h => exact nofun
  | call _ call ih => exact ih.perform call
  | request h components ih =>
      obtain ⟨memo, hlearned⟩ := h.learned
      exact ih.request hlearned components
  | table _ ha call ih => exact ih.keeps (.setTable _ _ _)

theorem sum_rowsAt_eq (s : Storage) {found : List QueryMatch}
    (hnodup : (found.map QueryMatch.archetype).Nodup) :
    (found.map fun m => (s.archetypes[m.archetype]?.map (·.numRows)).getD 0).foldr (· + ·) 0 =
      ∑ i ∈ (found.map QueryMatch.archetype).toFinset, s.rowsAt i := by
  rw [List.sum_toFinset _ hnodup, List.map_map]
  rfl

/-- The matches of a resolved reference are archetypes of the storage, each of them once, and
those that had all the components of its list at one time. -/
theorem ReachableWith.matches (h : ReachableWith config s ref) (hresolved : ref.isResolved = true) :
    ∃ (found : List QueryMatch) (first : Storage) (components : List ComponentId),
      s.queryMatches ref = .ok found ∧ Exact components first.archetypes.toList found ∧
      first.Extends s := by
  have hsome := QueryRef.resolved?_of_isResolved hresolved
  obtain ⟨first, components, hrecalls⟩ := h.answers _ hsome
  refine ⟨_, first, components, ?_, QueryCache.exact_scan .., hrecalls.archetypes⟩
  rw [queryMatches, hsome]
  exact congrArg Except.ok hrecalls.stores.matchesOf

theorem queryRowCount_eq {found : List QueryMatch} (hfound : s.queryMatches ref = .ok found)
    (hnodup : (found.map QueryMatch.archetype).Nodup) : s.queryRowCount ref =
      .ok (∑ i ∈ (found.map QueryMatch.archetype).toFinset, s.rowsAt i) := by
  rw [queryRowCount, hfound, ← s.sum_rowsAt_eq hnodup]
  rfl

theorem queryRowCount_unresolved (hunresolved : ref.isResolved = false) :
    s.queryRowCount ref = .error .unresolvedQuery := by
  rw [queryRowCount, queryMatches, QueryRef.resolved?_of_unresolved hunresolved]
  rfl

end Storage
end Lockstep
