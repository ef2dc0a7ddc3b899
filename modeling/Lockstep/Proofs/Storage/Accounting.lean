import Lockstep.Proofs.Storage.Searches
import Mathlib.Algebra.BigOperators.Group.Finset.Basic

/-!
# The query cache is accounted for

The buffer holds the matches of each list of components that was resolved, once, and nothing
else.  A search is made for each of these lists and for each request that finds no room.
-/

namespace Lockstep

namespace StorageExchange

variable {x : StorageExchange} {components : List ComponentId}

theorem signatures_of_none (h : x.signature? = none) : signatures [x] = ∅ := by
  rw [signatures, List.filterMap_cons_none h]
  rfl

theorem signatures_of_some (h : x.signature? = some components) :
    signatures [x] = {components} := by
  rw [signatures, List.filterMap_cons_some h]
  rfl

theorem signatures_append (xs ys : List StorageExchange) :
    signatures (xs ++ ys) = signatures xs ∪ signatures ys := by
  rw [signatures, List.filterMap_append, List.toFinset_append]
  rfl

theorem signature?_query (components : List ComponentId) (ref ref' : QueryRef) :
    signature? ⟨.makeQuery components ref, .query (.ok ()) ref'⟩ =
      if ref.isResolved then none else some components := rfl

theorem signature?_of_other (h : x.call.isRequest = false) : x.signature? = none := by
  unfold signature?
  split
  · contradiction
  · rfl

theorem overflows_of_other (h : x.call.isRequest = false) : x.overflows = false := by
  unfold overflows
  split
  · contradiction
  · rfl

theorem resolves_iff : x.resolves components = true ↔ x.signature? = some components := by
  unfold resolves signature?
  split <;> simp_all [and_comm]

end StorageExchange

namespace Storage

variable {s s' : Storage} {components : List ComponentId} {ref : QueryRef}

/-- The buffer is made up of the words of the lists that were resolved, and the searches of
those lists and of the requests that found no room. -/
structure Accounts (maxData : UInt32) (signatures : Finset (List ComponentId))
    (words : List ComponentId → Nat) (overflows : Nat) (s : Storage) : Prop where
  maxData_eq : s.queries.maxData = maxData
  known : ∀ components,
    (s.queries.bySignature.lookup components).isSome = true ↔ components ∈ signatures
  size : s.queries.data.size = ∑ components ∈ signatures, words components
  bound : s.queries.data.size ≤ maxData.toNat
  scans : s.queries.scans = signatures.card + overflows

namespace Accounts

variable {maxData : UInt32} {signatures : Finset (List ComponentId)}
  {words words' : List ComponentId → Nat} {overflows : Nat}

theorem of_new {config : StateConfig} (h : Storage.new config = .ok s) :
    Accounts config.maxQueryData ∅ words 0 s := by
  obtain ⟨-, rfl⟩ := new_eq_ok h
  exact ⟨rfl, fun components => by simp [QueryCache.empty], rfl, Nat.zero_le _, rfl⟩

theorem congr (h : Accounts maxData signatures words overflows s)
    (hwords : ∀ components ∈ signatures, words' components = words components)
    (hqueries : s'.queries = s.queries) : Accounts maxData signatures words' overflows s' := by
  refine ⟨hqueries ▸ h.maxData_eq, hqueries ▸ h.known, ?_, hqueries ▸ h.bound, hqueries ▸ h.scans⟩
  rw [hqueries, h.size]
  exact (Finset.sum_congr rfl hwords).symm

/-- A request that succeeds adds its list and the words of its matches, unless they are there;
one that finds no room adds a search. -/
theorem request {answer : StorageAnswer} (h : Accounts maxData signatures words overflows s)
    (hasked : s.Asked components ref answer s')
    (hwords : ∀ c ∈ signatures, words' c = words c)
    {x : StorageExchange} (hx : x = ⟨.makeQuery components ref, answer⟩)
    (hnew : x.signature? = some components → components ∉ signatures →
      words' components = s.queryWords components) :
    Accounts maxData (signatures ∪ StorageExchange.signatures [x]) words'
      (overflows + [x].countP (·.overflows)) s' := by
  subst hx
  have hkept := h.congr hwords (rfl : s.queries = s.queries)
  cases hasked with
  | stays hresolved =>
      have hnone := (StorageExchange.signature?_query components ref ref).trans
        (if_pos hresolved)
      rw [StorageExchange.signatures_of_none hnone, Finset.union_empty]
      exact hkept
  | unknown hunresolved =>
      rw [StorageExchange.signatures_of_none rfl, Finset.union_empty]
      exact hkept
  | @recalls resolved hunresolved _ hit =>
      have hsome := (StorageExchange.signature?_query components ref (.publish resolved)).trans
        (if_neg (Bool.eq_false_iff.1 hunresolved))
      have hmem : components ∈ signatures := (h.known components).1 (by rw [hit]; rfl)
      rw [StorageExchange.signatures_of_some hsome,
        Finset.union_eq_left.2 (Finset.singleton_subset_iff.2 hmem)]
      exact hkept
  | overflows hunresolved _ miss hfull =>
      rw [StorageExchange.signatures_of_none rfl, Finset.union_empty]
      exact ⟨hkept.maxData_eq, hkept.known, hkept.size, hkept.bound,
        (congrArg (· + 1) hkept.scans).trans (Nat.add_assoc ..)⟩
  | @learns resolved queries hunresolved _ miss hroom hsize hmax hmemo hscans _ =>
      have hsome := (StorageExchange.signature?_query components ref (.publish resolved)).trans
        (if_neg (Bool.eq_false_iff.1 hunresolved))
      have hmem : components ∉ signatures := by
        rw [← h.known, miss]
        exact Bool.false_ne_true
      rw [StorageExchange.signatures_of_some hsome, Finset.union_comm, ← Finset.insert_eq]
      refine ⟨hmax.trans h.maxData_eq, fun c => ?_, ?_, ?_, ?_⟩
      · rw [hmemo, List.lookup_cons, Finset.mem_insert]
        by_cases hc : c = components
        · subst hc
          simp
        · rw [beq_false_of_ne hc, ← h.known]
          simp [hc]
      · rw [hsize, hkept.size, Finset.sum_insert hmem, hnew hsome hmem, Nat.add_comm]
      · rw [hsize, ← h.maxData_eq]
        exact hroom
      · rw [hscans, h.scans, Finset.card_insert_of_notMem hmem, Nat.add_right_comm]
        rfl

/-- Other calls than requests leave the account as it is. -/
theorem keep {call : StorageCall} (h : Accounts maxData signatures words overflows s)
    (hwords : ∀ c ∈ signatures, words' c = words c) (hcall : call.isRequest = false) :
    let x : StorageExchange := ⟨call, (s.perform call).1⟩
    Accounts maxData (signatures ∪ StorageExchange.signatures [x]) words'
      (overflows + [x].countP (·.overflows)) (s.perform call).2 := by
  intro x
  have hnone : x.signature? = none := StorageExchange.signature?_of_other hcall
  have hoverflows : x.overflows = false := StorageExchange.overflows_of_other hcall
  rw [StorageExchange.signatures_of_none hnone, Finset.union_empty,
    List.countP_cons_of_neg (by rw [hoverflows]; exact Bool.false_ne_true), List.countP_nil]
  exact h.congr hwords (s.keeps_perform call hcall).queries

variable {memo : List ComponentId → Option Storage}

theorem perform (hlearned : Learned memo s)
    (h : Accounts maxData signatures (fun c => wordsIn (memo c) c) overflows s)
    (call : StorageCall) :
    let x : StorageExchange := ⟨call, (s.perform call).1⟩
    Accounts maxData (signatures ∪ StorageExchange.signatures [x])
      (fun c => wordsIn ((memo c).or (x.resolvedIn? s c)) c)
      (overflows + [x].countP (·.overflows)) (s.perform call).2 := by
  intro x
  have hwords : ∀ c ∈ signatures,
      wordsIn ((memo c).or (x.resolvedIn? s c)) c = wordsIn (memo c) c := by
    intro c hc
    obtain ⟨resolved, hit⟩ := Option.isSome_iff_exists.1 ((h.known c).2 hc)
    obtain ⟨first, hfirst, -⟩ := hlearned.known c resolved hit
    rw [hfirst, Option.some_or]
  cases hcall : call.isRequest with
  | false => exact h.keep hwords hcall
  | true =>
      cases call with
      | makeQuery components ref =>
          refine h.request (asked hlearned.bounded components ref) hwords rfl
            fun hsome hmem => ?_
          have hmiss : s.queries.bySignature.lookup components = none := by
            rwa [← h.known, Option.not_isSome_iff_eq_none] at hmem
          have hresolves := StorageExchange.resolves_iff.2 hsome
          rw [hlearned.unknown components hmiss, Option.none_or, StorageExchange.resolvedIn?,
            if_pos hresolves]
          rfl
      | _ => contradiction

end Accounts

end Storage

namespace Session

variable {t : Session}

/-! ## Runs -/

theorem accounts_after {maxData : UInt32} {signatures : Finset (List ComponentId)}
    {overflows : Nat} {memo : List ComponentId → Option Storage}
    (hlearned : Storage.Learned memo t.storage)
    (h : Storage.Accounts maxData signatures (fun c => Storage.wordsIn (memo c) c) overflows
      t.storage) (calls : List SessionCall) :
    Storage.Accounts maxData (signatures ∪ StorageExchange.signatures (t.exchanges calls))
      (fun c => Storage.wordsIn ((memo c).or (firstResolved? c t calls)) c)
      (overflows + (t.exchanges calls).countP (·.overflows)) (t.after calls).storage := by
  induction calls generalizing t memo signatures overflows with
  | nil =>
      simp only [firstResolved?, Option.or_none]
      rw [exchanges, List.countP_nil]
      have hnone : StorageExchange.signatures [] = ∅ := rfl
      rw [hnone, Finset.union_empty]
      exact h
  | cons call calls ih =>
      have hstep := h.perform hlearned (t.toCall call)
      have hrest := ih (t := t.next call) (hlearned.perform (t.toCall call)) hstep
      have hall : t.exchanges (call :: calls) =
          [t.exchange call] ++ (t.next call).exchanges calls := rfl
      rw [hall, StorageExchange.signatures_append, List.countP_append, ← Finset.union_assoc,
        ← Nat.add_assoc]
      simp only [Option.or_assoc] at hrest
      exact hrest

/-- After any calls the buffer holds the words of the lists that were resolved, each counted
once with the archetypes that matched it at first, and stays within its bound.  A search was
made for each of these lists and for each request that found no room.  A request for a new list
on an unresolved reference succeeds exactly when its components are registered and its own words
fit, and resolves the reference unless the matches are as many as the mark says.  One that fails
changes nothing but the number of searches, so all calls that follow are answered as if it had
not been made. -/
theorem query_cache_accounts {config : StateConfig} {s : Storage}
    (hnew : Storage.new config = .ok s) (calls : List SessionCall) :
    let t := (start s).after calls
    let history := (start s).exchanges calls
    let size := t.storage.queries.data.size
    size ≤ config.maxQueryData.toNat ∧
    size = ∑ components ∈ StorageExchange.signatures history,
      Storage.wordsIn (firstResolved? components (start s) calls) components ∧
    t.storage.scanCount =
      (StorageExchange.signatures history).card + history.countP (·.overflows) ∧
    ∀ q components, (t.refs q).isResolved = false →
      let answer := (t.exchange (.makeQuery q components)).answer
      let t' := t.next (.makeQuery q components)
      let registered := ∀ c ∈ components, t.storage.registry.isRegistered c = true
      let fits := size + t.storage.queryWords components ≤ config.maxQueryData.toNat
      ((∃ c, answer = .query (.error (.unknownComponent c)) (t.refs q)) ↔ ¬ registered) ∧
      (components ∉ StorageExchange.signatures history →
        (answer = .query (.ok ()) (t'.refs q) ↔ registered ∧ fits) ∧
        (answer = .query (.error (.queryDataFull config.maxQueryData)) (t.refs q) ↔
          registered ∧ ¬ fits) ∧
        ((t'.refs q).isResolved = true ↔
          registered ∧ fits ∧ t.storage.numMatching components ≠ QueryRef.mark.toNat)) ∧
      ∀ e, answer.error? = some e →
        t'.refs = t.refs ∧ t'.storage = t.storage.setScans t'.storage.scanCount ∧
        ∀ more, t'.exchanges more = t.exchanges more ∧
          (t'.after more).refs = (t.after more).refs ∧
          (t'.after more).storage =
            (t.after more).storage.setScans (t'.after more).storage.scanCount := by
  intro t history size
  have hlearned := learned_after (t := start s) (Storage.learned_of_new hnew) calls
  have haccounts := accounts_after (t := start s) (Storage.learned_of_new hnew)
    (Storage.Accounts.of_new hnew) calls
  rw [Finset.empty_union, Nat.zero_add] at haccounts
  simp only [Option.none_or] at haccounts
  refine ⟨haccounts.bound, haccounts.size, haccounts.scans,
    fun q components hunresolved => ?_⟩
  intro answer t' registered fits
  have hasked := Storage.asked hlearned.bounded components (t.refs q)
  refine ⟨hasked.unknown_iff hunresolved, fun hmem => ?_, fun e herror => ?_⟩
  · have miss : t.storage.queries.bySignature.lookup components = none := by
      rwa [← haccounts.known, Option.not_isSome_iff_eq_none] at hmem
    obtain ⟨hfound, hfull, hresolves⟩ := hasked.new_iff hunresolved miss
    rw [haccounts.maxData_eq] at hfound hfull hresolves
    obtain ⟨result, ref', hanswer⟩ : ∃ result ref', answer = .query result ref' := ⟨_, _, rfl⟩
    have href : t'.refs q = ref' := refs_next_self hanswer
    refine ⟨Iff.trans ?_ hfound, hfull, href ▸ hresolves result ref' hanswer⟩
    rw [href]
    refine ⟨fun hok => ⟨ref', hok⟩, fun ⟨_, hok⟩ => ?_⟩
    obtain ⟨hresult, -⟩ := StorageAnswer.query.inj (hanswer.symm.trans hok)
    rw [hanswer, hresult]
  · have hsame : SameButScans t t' := sameButScans_of_error herror
    refine ⟨hsame.refs, hsame.setScans, fun more => ?_⟩
    obtain ⟨hexchanges, hafter⟩ := hsame.after more
    exact ⟨hexchanges, hafter.refs, hafter.setScans⟩

namespace Accounted

def config : StateConfig where
  numWorlds := 1
  maxRowsPerTable := 4
  maxComponents := 3
  maxArchetypes := 3
  maxArchetypeComponents := 4
  maxQueryData := 7
  maxEntities := 2

def storage : Storage := ⟨config, .builtins 3, #[], #[], .empty 7, .empty 2⟩

theorem storage_eq : Storage.new config = .ok storage := rfl

/-- The second request recalls what the first has found. -/
def calls : List SessionCall :=
  [.other (.registerComponent ⟨4, 4⟩), .other (.registerArchetype [⟨2⟩]),
    .other (.registerArchetype [⟨2⟩]), .makeQuery 0 [⟨2⟩], .makeQuery 1 [⟨2⟩]]

end Accounted

theorem query_cache_accounts_sample :
    let t := (start Accounted.storage).after Accounted.calls
    t.storage.scanCount = 1 ∧
      (t.exchange (.makeQuery 2 [⟨2⟩, ⟨0⟩])).answer =
        .query (.error (.queryDataFull 7)) .unresolved ∧
      ∀ more, (t.next (.makeQuery 2 [⟨2⟩, ⟨0⟩])).exchanges more = t.exchanges more := by
  intro t
  obtain ⟨-, -, hscans, hrequest⟩ :=
    query_cache_accounts Accounted.storage_eq Accounted.calls
  obtain ⟨-, hnew, hrefused⟩ := hrequest 2 [⟨2⟩, ⟨0⟩] (by decide +kernel)
  have hfull := (hnew (by decide +kernel)).2.1.2 ⟨by decide +kernel, by decide +kernel⟩
  have hunresolved : t.refs 2 = .unresolved := by decide +kernel
  refine ⟨hscans.trans (by decide +kernel), hunresolved ▸ hfull, fun more => ?_⟩
  exact ((hrefused (.queryDataFull 7) (by rw [hfull]; rfl)).2.2 more).1

end Session
end Lockstep
