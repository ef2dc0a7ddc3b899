import Lockstep.Proofs.Storage.Requests

/-!
# Queries are exact and immutable

A reference is resolved once, by a request of its own, and shows from then on what its list
of components stood for when it was first resolved, whatever happens to the storage and to
other references.
-/

namespace Lockstep
namespace Session

variable {t : Session} {q : Nat}

/-- `signature` tells for each resolved reference with which components it was resolved. -/
structure Pointed (signature : Nat → Option (List ComponentId)) (t : Session) : Prop where
  resolved : ∀ q, (t.refs q).isResolved = true → ∃ components resolved,
    signature q = some components ∧
    t.storage.queries.bySignature.lookup components = some resolved ∧
    t.refs q = .publish resolved
  unresolved : ∀ q, (t.refs q).isResolved = false → signature q = none

theorem refs_next_other (t : Session) {q q' : Nat} (hq : q' ≠ q)
    (components : List ComponentId) :
    (t.next (.makeQuery q' components)).refs q = t.refs q ∧
      t.resolution? q (.makeQuery q' components) = none := by
  constructor
  · simp only [next]
    split
    · rename_i heq _
      obtain ⟨rfl, -⟩ := SessionCall.makeQuery.inj heq
      exact if_neg hq
    · rfl
  · exact if_neg fun hboth => hq hboth.1

theorem refs_next_self {components : List ComponentId} {result : Except StorageError Unit}
    {ref : QueryRef} (h : (t.exchange (.makeQuery q components)).answer = .query result ref) :
    (t.next (.makeQuery q components)).refs q = ref := by
  simp only [next, h, if_true]

/-- A resolved reference stays as it is. -/
theorem refs_next (hresolved : (t.refs q).isResolved = true) (call : SessionCall) :
    (t.next call).refs q = t.refs q := by
  cases call with
  | other call => rfl
  | makeQuery q' components =>
      by_cases hq : q' = q
      · subst hq
        have hrequest := t.storage.requested components (t.refs q')
        generalize hanswer : (t.storage.perform (.makeQuery components (t.refs q'))).1 = answer
          at hrequest
        generalize (t.storage.perform (.makeQuery components (t.refs q'))).2 = s' at hrequest
        cases hrequest with
        | stays => exact refs_next_self hanswer
        | refuses hunresolved | recalls hunresolved | learns hunresolved =>
            exact absurd (hresolved.symm.trans hunresolved) (by decide)
      · exact (t.refs_next_other hq components).1

/-- A reference is resolved by a request of its own, which publishes what it has found. -/
theorem next_of_unresolved (hunresolved : (t.refs q).isResolved = false) (call : SessionCall) :
    (t.resolution? q call = none ∧ ((t.next call).refs q).isResolved = false) ∨
      ∃ components resolved, t.resolution? q call = some components ∧
        (t.next call).refs q = .publish resolved ∧ ((t.next call).refs q).isResolved = true ∧
        (t.next call).storage.queries.bySignature.lookup components = some resolved := by
  cases call with
  | other call => exact .inl ⟨rfl, hunresolved⟩
  | makeQuery q' components =>
      by_cases hq : q' = q
      · subst hq
        cases hnext : ((t.next (.makeQuery q' components)).refs q').isResolved with
        | false =>
            refine .inl ⟨if_neg fun hall => ?_, rfl⟩
            exact absurd (hall.2.2.symm.trans hnext) (by decide)
        | true =>
            have hrequest := t.storage.requested components (t.refs q')
            rcases hrequest.refused_or_published hunresolved with
              ⟨e, hanswer⟩ | ⟨resolved, hanswer, hit⟩
            · rw [refs_next_self hanswer, hunresolved] at hnext
              contradiction
            · have hresolves :
                  (t.exchange (.makeQuery q' components)).resolves components = true := by
                simp [exchange, toCall, StorageExchange.resolves, hanswer, hunresolved]
              exact .inr ⟨components, resolved, if_pos ⟨rfl, hresolves, hnext⟩,
                refs_next_self hanswer, rfl, hit⟩
      · obtain ⟨hsame, hnone⟩ := t.refs_next_other hq components
        exact .inl ⟨hnone, hsame ▸ hunresolved⟩

variable {signature : Nat → Option (List ComponentId)}

theorem pointed_start (s : Storage) : Pointed (fun _ => none) (start s) :=
  ⟨fun _ hresolved => absurd hresolved Bool.false_ne_true, fun _ _ => rfl⟩

theorem Pointed.congr {signature' : Nat → Option (List ComponentId)} (h : Pointed signature t)
    (hsignature : ∀ q, signature' q = signature q) : Pointed signature' t :=
  funext hsignature ▸ h

theorem Pointed.next (h : Pointed signature t) (call : SessionCall) :
    Pointed (fun q => (signature q).or (t.resolution? q call)) (t.next call) := by
  refine ⟨fun q hresolved => ?_, fun q hunresolved => ?_⟩
  · cases hbefore : (t.refs q).isResolved with
    | true =>
        obtain ⟨components, resolved, hsignature, hit, href⟩ := h.resolved q hbefore
        refine ⟨components, resolved, by rw [hsignature, Option.some_or], ?_, ?_⟩
        · exact Storage.lookup_perform hit _
        · rw [refs_next hbefore, href]
    | false =>
        rcases next_of_unresolved hbefore call with
          ⟨-, hstill⟩ | ⟨components, resolved, hnow, href, -, hit⟩
        · exact absurd (hresolved.symm.trans hstill) (by decide)
        · refine ⟨components, resolved, ?_, hit, href⟩
          rw [h.unresolved q hbefore, Option.none_or, hnow]
  · cases hbefore : (t.refs q).isResolved with
    | true =>
        rw [refs_next hbefore, hbefore] at hunresolved
        contradiction
    | false =>
        rcases next_of_unresolved hbefore call with ⟨hnone, -⟩ | ⟨-, -, -, -, hresolved, -⟩
        · rw [h.unresolved q hbefore, hnone, Option.none_or]
        · exact absurd (hresolved.symm.trans hunresolved) (by decide)

/-! ## Runs -/

theorem learned_after {memo : List ComponentId → Option Storage}
    (h : Storage.Learned memo t.storage) (calls : List SessionCall) :
    Storage.Learned (fun c => (memo c).or (firstResolved? c t calls)) (t.after calls).storage := by
  induction calls generalizing t memo with
  | nil => exact h.congr fun c => Option.or_none
  | cons call calls ih =>
      refine Storage.Learned.congr (ih (t := t.next call) (h.perform (t.toCall call))) fun c => ?_
      rw [firstResolved?, ← Option.or_assoc]
      rfl

theorem pointed_after (h : Pointed signature t) (calls : List SessionCall) :
    Pointed (fun q => (signature q).or (signature? q t calls)) (t.after calls) := by
  induction calls generalizing t signature with
  | nil => exact h.congr fun q => Option.or_none
  | cons call calls ih =>
      refine (ih (h.next call)).congr fun q => ?_
      rw [signature?, ← Option.or_assoc]

theorem refs_after (hresolved : (t.refs q).isResolved = true) (calls : List SessionCall) :
    (t.after calls).refs q = t.refs q := by
  induction calls generalizing t with
  | nil => rfl
  | cons call calls ih =>
      have hsame := refs_next hresolved call
      exact (ih (hsame ▸ hresolved)).trans hsame

/-- A resolved reference shows what its list of components stands for. -/
theorem shows_of_resolved {memo : List ComponentId → Option Storage}
    (hlearned : Storage.Learned memo t.storage) (hpointed : Pointed signature t)
    (hresolved : (t.refs q).isResolved = true) :
    ∃ components first found, signature q = some components ∧ memo components = some first ∧
      first.Extends t.storage ∧ found = QueryCache.scan components first.archetypes.toList ∧
      (t.refs q).numComponents = .ofNat components.length ∧
      (found ≠ [] → (t.refs q).numComponents.toNat = components.length) ∧
      (t.refs q).numMatching.toNat = found.length ∧
      t.storage.queryMatches (t.refs q) = .ok found := by
  obtain ⟨components, resolved, hsignature, hit, href⟩ := hpointed.resolved q hresolved
  obtain ⟨first, hfirst, hrecalls⟩ := hlearned.known components resolved hit
  rw [href] at hresolved ⊢
  refine ⟨components, first, _, hsignature, hfirst, hrecalls.archetypes, rfl,
    hrecalls.numComponents, ?_, hrecalls.stores.numMatching, ?_⟩
  · exact hrecalls.stores.numComponents (QueryCache.exact_scan ..)
  · rw [Storage.queryMatches, QueryRef.resolved?_of_isResolved hresolved]
    exact congrArg Except.ok hrecalls.stores.matchesOf

/-- After any calls a resolved reference lists the archetypes that had all its components
when these were first resolved, in ascending order, each with the columns of the components
in the order of the request.  These are the columns of the archetypes ever after, and
neither the reference nor its matches change any more.  Its counts are those of the matches and
of the components, the latter cut to a word only where nothing matches. -/
theorem query_exact {config : StateConfig} {s : Storage} (hnew : Storage.new config = .ok s)
    (calls : List SessionCall) (q : Nat)
    (hresolved : (((start s).after calls).refs q).isResolved = true) :
    let t := (start s).after calls
    ∃ components first found,
      signature? q (start s) calls = some components ∧
      firstResolved? components (start s) calls = some first ∧
      t.storage.queryMatches (t.refs q) = .ok found ∧
      Exact components first.archetypes.toList found ∧
      (∀ m ∈ found, ∃ archetype, t.storage.archetypes[m.archetype]? = some archetype ∧
        m.columns.map some = components.map archetype.columnIndex) ∧
      (t.refs q).numComponents = .ofNat components.length ∧
      (found ≠ [] → (t.refs q).numComponents.toNat = components.length) ∧
      (t.refs q).numMatching.toNat = found.length ∧
      ∀ more, (t.after more).refs q = t.refs q ∧
        (t.after more).storage.queryMatches (t.refs q) = .ok found := by
  intro t
  have hlearned := learned_after (t := start s) (Storage.learned_of_new hnew) calls
  have hpointed := pointed_after (pointed_start s) calls
  obtain ⟨components, first, found, hsignature, hfirst, hextends, hfound, hcomponents, hexactly,
    hmatching, hmatches⟩ := shows_of_resolved hlearned hpointed hresolved
  have hexact : Exact components first.archetypes.toList found := hfound ▸ QueryCache.exact_scan ..
  refine ⟨components, first, found, hsignature, hfirst, hmatches, hexact, fun m hm => ?_,
    hcomponents, hexactly, hmatching, fun more => ⟨refs_after hresolved more, ?_⟩⟩
  · obtain ⟨archetype, harchetype, hcolumns⟩ := hexact.columns m hm
    rw [Array.getElem?_toList] at harchetype
    obtain ⟨archetype', harchetype', hsame⟩ := hextends _ archetype harchetype
    refine ⟨archetype', harchetype', hcolumns.trans (List.map_congr_left fun c _ => ?_)⟩
    rw [Archetype.columnIndex, Archetype.columnIndex, hsame]
  · -- The list and the storage found first stay, so the matches at the end are the same.
    have hsame := refs_after hresolved more
    obtain ⟨components', first', found', hsignature', hfirst', -, hfound', -, -, -, hmatches'⟩ :=
      shows_of_resolved (learned_after hlearned more) (pointed_after hpointed more)
        (hsame ▸ hresolved)
    rw [hsignature, Option.some_or, Option.some.injEq] at hsignature'
    subst hsignature'
    rw [hfirst, Option.some_or, Option.some.injEq] at hfirst'
    subst hfirst'
    rw [← hsame, hmatches', hfound', hfound]

namespace Recalled

def config : StateConfig where
  numWorlds := 1
  maxRowsPerTable := 4
  maxComponents := 3
  maxArchetypes := 3
  maxArchetypeComponents := 4
  maxQueryData := 6
  maxEntities := 2

def storage : Storage := ⟨config, .builtins 3, #[], #[], .empty 6, .empty 2⟩

theorem storage_eq : Storage.new config = .ok storage := rfl

/-- The second request comes after another archetype. -/
def calls : List SessionCall :=
  [.other (.registerComponent ⟨4, 4⟩), .other (.registerArchetype [⟨2⟩]),
    .other (.registerArchetype []), .makeQuery 0 [⟨2⟩, ⟨0⟩, ⟨2⟩], .other (.registerArchetype [⟨2⟩]),
    .makeQuery 1 [⟨2⟩, ⟨0⟩, ⟨2⟩], .makeQuery 1 []]

end Recalled

theorem query_exact_sample :
    let t := (start Recalled.storage).after Recalled.calls
    ∀ more, (t.after more).storage.queryMatches (t.refs 1) = .ok [⟨0, [2, 0, 2]⟩] := by
  intro t more
  obtain ⟨components, first, found, -, -, hmatches, -, -, -, -, -, hmore⟩ :=
    query_exact Recalled.storage_eq Recalled.calls 1 (by decide +kernel)
  have hnow : (t.storage.queryMatches (t.refs 1)).toOption = some [⟨0, [2, 0, 2]⟩] := by
    decide +kernel
  rw [hmatches] at hnow
  obtain rfl := Option.some.inj hnow
  exact (hmore more).2

end Session
end Lockstep
