import Lockstep.Proofs.Storage.Effect
import Lockstep.Proofs.Storage.Matches
import Lockstep.Storage.Session

/-!
# Requests for matches

The first request for a list of components that succeeds decides what the list stands for.
From then on the storage recalls the matches of that moment.  Other calls leave the queries
alone, and take no archetype away.
-/

namespace Lockstep
namespace Storage

variable {s s' : Storage} {components : List ComponentId} {ref : QueryRef}

/-- Archetypes are only added, and each keeps its components. -/
def Extends (s s' : Storage) : Prop :=
  ∀ (i : Nat) archetype, s.archetypes[i]? = some archetype →
    ∃ archetype', s'.archetypes[i]? = some archetype' ∧
      archetype'.userComponents = archetype.userComponents

theorem Extends.refl (s : Storage) : s.Extends s := fun _ archetype h => ⟨archetype, h, rfl⟩

theorem Extends.trans {s'' : Storage} (h : s.Extends s') (h' : s'.Extends s'') :
    s.Extends s'' := by
  intro i archetype harchetype
  obtain ⟨archetype', harchetype', hcomponents⟩ := h i archetype harchetype
  obtain ⟨archetype'', harchetype'', hcomponents'⟩ := h' i archetype' harchetype'
  exact ⟨archetype'', harchetype'', hcomponents'.trans hcomponents⟩

/-- A call that neither takes archetypes away nor touches the queries. -/
structure Keeps (s s' : Storage) : Prop where
  archetypes : s.Extends s'
  queries : s'.queries = s.queries

namespace Keeps

theorem of_eq (harchetypes : s'.archetypes = s.archetypes) (hqueries : s'.queries = s.queries) :
    s.Keeps s' :=
  ⟨fun _ archetype h => ⟨archetype, harchetypes ▸ h, rfl⟩, hqueries⟩

theorem refl (s : Storage) : s.Keeps s := of_eq rfl rfl

theorem setTable (s : Storage) (a : ArchetypeId) (table : Table) :
    s.Keeps (s.setTable a table) := by
  refine ⟨fun i archetype h => ?_, rfl⟩
  rw [Storage.setTable, Array.getElem?_modify, h]
  split
  · exact ⟨_, rfl, rfl⟩
  · exact ⟨archetype, rfl, rfl⟩

theorem setEntities (h : s.Keeps s') (entities : EntityStore) : s.Keeps { s' with entities } :=
  ⟨h.archetypes, h.queries⟩

end Keeps

theorem keeps_push (s : Storage) (archetype : Archetype) (pool : Array ComponentId) :
    s.Keeps { s with
      archetypes := s.archetypes.push archetype
      archetypeComponents := pool } := by
  refine ⟨fun i found h => ⟨found, ?_, rfl⟩, rfl⟩
  obtain ⟨hlt, -⟩ := Array.getElem?_eq_some_iff.1 h
  exact (Array.getElem?_push_lt hlt).trans (h ▸ (Array.getElem?_eq_getElem hlt).symm)

theorem keeps_perform (s : Storage) (call : StorageCall)
    (hcall : call.isRequest = false) : s.Keeps (s.perform call).2 := by
  have heffect := s.effect call
  generalize (s.perform call).2 = s' at heffect
  cases heffect with
  | nothing => exact .refl s
  | registry => exact .of_eq rfl rfl
  | archetype archetype pool => exact s.keeps_push archetype pool
  | queries => contradiction
  | slots => exact .of_eq rfl rfl
  | table => exact (Keeps.setTable s _ _).setEntities _

/-- What a request for a list of components does. -/
inductive Requested (s : Storage) (components : List ComponentId) (ref : QueryRef) :
    StorageAnswer → Storage → Prop
  | stays (hresolved : ref.isResolved = true) :
      Requested s components ref (.query (.ok ()) ref) s
  | refuses {e : StorageError} {queries : QueryCache} (hunresolved : ref.isResolved = false)
      (hdata : queries.data = s.queries.data) (hmax : queries.maxData = s.queries.maxData)
      (hmemo : queries.bySignature = s.queries.bySignature) :
      Requested s components ref (.query (.error e) ref) { s with queries }
  | recalls {resolved : ResolvedQuery} (hunresolved : ref.isResolved = false)
      (hit : s.queries.bySignature.lookup components = some resolved) :
      Requested s components ref (.query (.ok ()) (.publish resolved)) s
  | learns {resolved : ResolvedQuery} {queries : QueryCache} {words : List Nat}
      (hunresolved : ref.isResolved = false)
      (miss : s.queries.bySignature.lookup components = none)
      (hdata : queries.data.toList = s.queries.data.toList ++ words)
      (hmemo : queries.bySignature = (components, resolved) :: s.queries.bySignature)
      (hcomponents : resolved.numComponents = .ofNat components.length)
      (stores : s.queries.Bounded → queries.Bounded ∧
        queries.Stores resolved (QueryCache.scan components s.archetypes.toList)) :
      Requested s components ref (.query (.ok ()) (.publish resolved)) { s with queries }

theorem requested (s : Storage) (components : List ComponentId) (ref : QueryRef) :
    s.Requested components ref (s.perform (.makeQuery components ref)).1
      (s.perform (.makeQuery components ref)).2 := by
  rw [perform_makeQuery, makeQuery]
  cases hresolved : ref.isResolved with
  | true => exact .stays hresolved
  | false =>
      cases components.find? (!s.registry.isRegistered ·) with
      | some id => exact .refuses hresolved rfl rfl rfl
      | none =>
          have hresolve := s.queries.resolve_cases components s.archetypes.toList
          generalize s.queries.resolve components s.archetypes.toList = outcome at hresolve
          cases hresolve with
          | recalls hit => exact .recalls hresolved hit
          | overflows hdata hmax hmemo => exact .refuses hresolved hdata hmax hmemo
          | learns miss hdata hmemo hcomponents stores =>
              exact .learns hresolved miss hdata hmemo hcomponents stores

/-- A request through a reference that is not resolved leaves it as it is or publishes what is
known of the list from then on. -/
theorem Requested.refused_or_published {answer : StorageAnswer}
    (h : s.Requested components ref answer s') (hunresolved : ref.isResolved = false) :
    (∃ e, answer = .query (.error e) ref) ∨
      ∃ resolved, answer = .query (.ok ()) (.publish resolved) ∧
        s'.queries.bySignature.lookup components = some resolved := by
  cases h with
  | stays hresolved => exact absurd (hresolved.symm.trans hunresolved) (by decide)
  | refuses => exact .inl ⟨_, rfl⟩
  | recalls _ hit => exact .inr ⟨_, rfl, hit⟩
  | learns _ _ _ hmemo =>
      refine .inr ⟨_, rfl, ?_⟩
      rw [hmemo, List.lookup_cons_self]

/-- What is known stays known. -/
theorem lookup_perform {resolved : ResolvedQuery}
    (hit : s.queries.bySignature.lookup components = some resolved)
    (call : StorageCall) :
    (s.perform call).2.queries.bySignature.lookup components = some resolved := by
  cases call with
  | makeQuery components' ref =>
      have hrequest := s.requested components' ref
      generalize (s.perform (.makeQuery components' ref)).1 = answer at hrequest
      generalize (s.perform (.makeQuery components' ref)).2 = s' at hrequest ⊢
      cases hrequest with
      | stays | recalls => exact hit
      | refuses _ _ _ hmemo => exact hmemo ▸ hit
      | learns hunresolved miss hdata hmemo =>
          have hne : components ≠ components' := by
            rintro rfl
            exact absurd (hit.symm.trans miss) (by simp)
          rw [hmemo, List.lookup_cons, beq_false_of_ne hne]
          exact hit
  | _ =>
      rw [(s.keeps_perform _ (by rfl)).queries]
      exact hit

/-! ## What a list of components stands for -/

/-- A list of components that is known stands for the matches among the archetypes of the
storage in which it was first resolved. -/
structure Recalls (first s : Storage) (components : List ComponentId) (resolved : ResolvedQuery) :
    Prop where
  numComponents : resolved.numComponents = .ofNat components.length
  stores : s.queries.Stores resolved (QueryCache.scan components first.archetypes.toList)
  archetypes : first.Extends s

theorem Recalls.keep {first : Storage} {resolved : ResolvedQuery} {words : List Nat}
    (h : Recalls first s components resolved) (harchetypes : s.Extends s')
    (hdata : s'.queries.data.toList = s.queries.data.toList ++ words) :
    Recalls first s' components resolved :=
  ⟨h.numComponents, h.stores.append hdata, h.archetypes.trans harchetypes⟩

/-- `memo` tells for each list that is known in which storage it was first resolved. -/
structure Learned (memo : List ComponentId → Option Storage) (s : Storage) : Prop where
  bounded : s.queries.Bounded
  known : ∀ components resolved, s.queries.bySignature.lookup components = some resolved →
    ∃ first, memo components = some first ∧ Recalls first s components resolved
  unknown : ∀ components, s.queries.bySignature.lookup components = none → memo components = none

namespace Learned

variable {memo : List ComponentId → Option Storage}

theorem keep (h : Learned memo s) (harchetypes : s.Extends s')
    (hdata : s'.queries.data = s.queries.data) (hmax : s'.queries.maxData = s.queries.maxData)
    (hmemo : s'.queries.bySignature = s.queries.bySignature) : Learned memo s' := by
  refine ⟨h.bounded.congr hdata hmax, fun components resolved hit => ?_, fun components miss => ?_⟩
  · obtain ⟨first, hfirst, hrecalls⟩ := h.known components resolved (hmemo ▸ hit)
    have hdata : s'.queries.data.toList = s.queries.data.toList ++ [] := by
      rw [hdata, List.append_nil]
    exact ⟨first, hfirst, hrecalls.keep harchetypes hdata⟩
  · exact h.unknown components (hmemo ▸ miss)

theorem congr {memo' : List ComponentId → Option Storage} (h : Learned memo s)
    (hmemo : ∀ components, memo' components = memo components) : Learned memo' s :=
  funext hmemo ▸ h

theorem keeps (h : Learned memo s) (hkeeps : s.Keeps s') : Learned memo s' :=
  h.keep hkeeps.archetypes (congrArg _ hkeeps.queries) (congrArg _ hkeeps.queries)
    (congrArg _ hkeeps.queries)

/-- A request that succeeds settles what a list stands for, unless that was known. -/
theorem request {answer : StorageAnswer} (h : Learned memo s)
    (hrequest : s.Requested components ref answer s') :
    Learned (fun c => (memo c).or (StorageExchange.resolvedIn? s c
      ⟨.makeQuery components ref, answer⟩)) s' := by
  cases hrequest with
  | stays hresolved =>
      refine h.congr fun c => ?_
      simp [StorageExchange.resolvedIn?, StorageExchange.resolves, hresolved]
  | refuses _ hdata hmax hmemo =>
      refine Learned.congr (h.keep (.refl s) hdata hmax hmemo) fun c => ?_
      simp [StorageExchange.resolvedIn?, StorageExchange.resolves]
  | @recalls resolved hunresolved hit =>
      obtain ⟨first, hfirst, -⟩ := h.known components resolved hit
      refine h.congr fun c => ?_
      by_cases hc : components = c
      · subst hc
        rw [hfirst, Option.some_or]
      · simp [StorageExchange.resolvedIn?, StorageExchange.resolves, hc]
  | @learns resolved queries words hunresolved miss hdata hmemo hcomponents stores =>
      obtain ⟨hbounded, stores⟩ := stores h.bounded
      have hkept : s.Extends { s with queries } := .refl s
      refine ⟨hbounded, fun c resolved' hit => ?_, fun c hmiss => ?_⟩
      · by_cases hc : c = components
        · subst hc
          rw [hmemo, List.lookup_cons_self, Option.some.injEq] at hit
          subst hit
          refine ⟨s, ?_, hcomponents, stores, hkept⟩
          simp [h.unknown c miss, StorageExchange.resolvedIn?, StorageExchange.resolves,
            hunresolved]
        · rw [hmemo, List.lookup_cons, beq_false_of_ne hc] at hit
          obtain ⟨first, hfirst, hrecalls⟩ := h.known c resolved' hit
          exact ⟨first, by rw [hfirst, Option.some_or], hrecalls.keep hkept hdata⟩
      · rw [hmemo, List.lookup_cons] at hmiss
        split at hmiss
        · contradiction
        · rename_i hc
          have hne : ¬ components = c := fun heq => by simp [heq] at hc
          rw [h.unknown c hmiss]
          simp [StorageExchange.resolvedIn?, StorageExchange.resolves, hne]

theorem perform (h : Learned memo s) (call : StorageCall) :
    Learned (fun c => (memo c).or (StorageExchange.resolvedIn? s c ⟨call, (s.perform call).1⟩))
      (s.perform call).2 := by
  cases call with
  | makeQuery components ref => exact h.request (s.requested components ref)
  | _ =>
      refine Learned.congr (h.keeps (s.keeps_perform _ rfl)) fun c => ?_
      simp [StorageExchange.resolvedIn?, StorageExchange.resolves]

end Learned

theorem learned_of_new {config : StateConfig} (h : Storage.new config = .ok s) :
    Learned (fun _ => none) s := by
  obtain ⟨-, rfl⟩ := new_eq_ok h
  exact ⟨Nat.zero_le _, fun components resolved hit => absurd hit (by simp [QueryCache.empty]),
    fun _ _ => rfl⟩

end Storage
end Lockstep
