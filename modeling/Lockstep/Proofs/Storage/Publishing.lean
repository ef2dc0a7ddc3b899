import Lockstep.Proofs.Storage.Searches
import Lockstep.Storage.Publication

/-!
# Publishing once

The caller that holds the lock is the only one that stores anything, so a reference goes through
five stages, and each thread stands where the stage of the reference lets it stand.
-/

namespace Lockstep
namespace QueryPublication

variable {storage : Storage} {components : List ComponentId} {p q : QueryPublication}

/-- How far the caller that resolves the query has come. -/
inductive Stage where
  | unresolved
  | resolved (r : ResolvedQuery)
  | offset (r : ResolvedQuery)
  | numComponents (r : ResolvedQuery)
  | published (r : ResolvedQuery)

namespace Stage

def resolved? : Stage → Option ResolvedQuery
  | unresolved => none
  | resolved r | offset r | numComponents r | published r => some r

def isPublished : Stage → Bool
  | published _ => true
  | _ => false

/-- Whether the query is resolved and its reference not yet. -/
def isBusy : Stage → Bool
  | unresolved | published _ => false
  | _ => true

def ref : Stage → QueryRef
  | unresolved | resolved _ => .unresolved
  | offset r => { QueryRef.unresolved with offset := r.offset }
  | numComponents r => { QueryRef.publish r with numMatching := QueryRef.mark }
  | published r => .publish r

def stores : Stage → List QueryField
  | unresolved | resolved _ => []
  | offset _ => [.offset]
  | numComponents _ => [.numComponents, .offset]
  | published _ => [.numMatching, .numComponents, .offset]

theorem count_stores_le (stage : Stage) (field : QueryField) : stage.stores.count field ≤ 1 := by
  have hnodup : stage.stores.Nodup := by
    cases stage <;> simp [stores]
  exact List.nodup_iff_count_le_one.1 hnodup field

theorem isPublished_of_isResolved {stage : Stage} (h : stage.ref.isResolved = true) :
    ∃ r, stage = published r := by
  cases stage with
  | published r => exact ⟨r, rfl⟩
  | _ => exact absurd h (by simp [ref, QueryRef.isResolved, QueryRef.unresolved])

end Stage

/-- The places of a caller at each stage.  All places outside the lock stay open to it. -/
inductive Stands (storage : Storage) (components : List ComponentId) :
    Stage → QueryCaller → Prop
  | check {stage : Stage} : Stands storage components stage .check
  | acquire {stage : Stage} : Stands storage components stage .acquire
  | recheck : Stands storage components .unresolved .recheck
  | recheckLate {r : ResolvedQuery} : Stands storage components (.published r) .recheck
  | resolve : Stands storage components .unresolved .resolve
  | storeOffset {r : ResolvedQuery} : Stands storage components (.resolved r) (.storeOffset r)
  | storeNumComponents {r : ResolvedQuery} :
      Stands storage components (.offset r) (.storeNumComponents r)
  | storeNumMatching {r : ResolvedQuery} :
      Stands storage components (.numComponents r) (.storeNumMatching r)
  | release {r : ResolvedQuery} : Stands storage components (.published r) (.release (.ok ()))
  | releaseRefused {e : StorageError} (h : storage.resolution components = .error e) :
      Stands storage components .unresolved (.release (.error e))
  | returned {r : ResolvedQuery} : Stands storage components (.published r) (.returned (.ok ()))
  | returnedUnknown {stage : Stage} {c : ComponentId} :
      Stands storage components stage (.returned (.error (.unknownComponent c)))
  | returnedRefused {stage : Stage} {e : StorageError}
      (h : storage.resolution components = .error e) :
      Stands storage components stage (.returned (.error e))

/-- The places of a reader at each stage. -/
inductive Reads : Stage → QueryReader → Prop
  | check {stage : Stage} : Reads stage .check
  | unseen {stage : Stage} : Reads stage (.returned none)
  | readOffset {r : ResolvedQuery} : Reads (.published r) (.readOffset r.numMatching)
  | readNumComponents {r : ResolvedQuery} :
      Reads (.published r) (.readNumComponents r.numMatching r.offset)
  | seen {r : ResolvedQuery} : Reads (.published r) (.returned (some (.publish r)))

section Places

variable {stage stage' : Stage} {caller : QueryCaller} {reader : QueryReader}

theorem Stands.of_outside (h : Stands storage components stage caller)
    (houtside : caller.isInside = false) (hstage : stage.isPublished = false) :
    Stands storage components stage' caller := by
  cases h with
  | check => exact .check
  | acquire => exact .acquire
  | returnedUnknown => exact .returnedUnknown
  | returnedRefused h => exact .returnedRefused h
  | _ => contradiction

theorem Stands.error_of_isRefused (h : Stands storage components stage caller)
    (hrefused : caller.isRefused = true) : ∃ e, storage.resolution components = .error e := by
  cases h with
  | releaseRefused h | returnedRefused h => exact ⟨_, h⟩
  | _ => contradiction

theorem Reads.of_unpublished (h : Reads stage reader) (hstage : stage.isPublished = false) :
    Reads stage' reader := by
  cases h with
  | check => exact .check
  | unseen => exact .unseen
  | _ => contradiction

end Places

/-- What is known of the searches at each stage. -/
def Searched (storage : Storage) (components : List ComponentId) (stage : Stage)
    (s : Storage) (refusals : Nat) : Prop :=
  match stage.resolved? with
  | none => s = storage.setScans (storage.scanCount + refusals)
  | some r => storage.resolution components = .ok r ∧ s.scanCount ≤ storage.scanCount + 1

/-- What holds after each step. -/
structure Coherent (storage : Storage) (components : List ComponentId) (stage : Stage)
    (p : QueryPublication) : Prop where
  components_eq : p.components = components
  ref : p.ref = stage.ref
  stores : p.stores = stage.stores
  searched : Searched storage components stage p.storage p.refusals
  callers : ∀ {i : Nat} {caller : QueryCaller}, p.callers[i]? = some caller →
    Stands storage components stage caller
  readers : ∀ {i : Nat} {reader : QueryReader}, p.readers[i]? = some reader → Reads stage reader
  lock : ∀ {i : Nat} {caller : QueryCaller}, p.callers[i]? = some caller →
    caller.isInside = true → p.holder = some i
  busy : stage.isBusy = true → p.holder.isSome = true

theorem refusals_moveCaller {i : Nat} {a b : QueryCaller} (hi : p.callers[i]? = some a) :
    (p.moveCaller i b).refusals + a.isRefused.toNat = p.refusals + b.isRefused.toNat := by
  obtain ⟨hlt, ha⟩ := Array.getElem?_eq_some_iff.1 hi
  have htoNat : ∀ c : QueryCaller, (if c.isRefused = true then 1 else 0) = c.isRefused.toNat :=
    fun c => by cases c.isRefused <;> rfl
  have hcount := List.countP_set (p := (·.isRefused)) (a := b) (l := p.callers.toList) hlt
  simp only [Array.getElem_toList, ha, htoNat] at hcount
  have hcounted : a.isRefused.toNat ≤ p.callers.toList.countP (·.isRefused) := by
    cases hrefused : a.isRefused with
    | false => exact Nat.zero_le _
    | true =>
        have hmem := Array.mem_toList_iff.2 (Array.mem_of_getElem? hi)
        exact List.countP_pos_iff.2 ⟨a, hmem, hrefused⟩
  simp only [refusals, moveCaller, Array.toList_setIfInBounds, hcount]
  omega

/-! ## Steps -/

variable {stage stage' : Stage} {i : Nat}

theorem coherent_start (storage : Storage) (components : List ComponentId)
    (numCallers numReaders : Nat) :
    Coherent storage components .unresolved (start storage components numCallers numReaders) where
  components_eq := rfl
  ref := rfl
  stores := rfl
  searched := by
    have hnone : (start storage components numCallers numReaders).refusals = 0 := by
      refine List.countP_eq_zero.2 fun caller hmem => ?_
      rw [start, Array.toList_replicate] at hmem
      rw [List.eq_of_mem_replicate hmem]
      exact Bool.false_ne_true
    rw [hnone]
    exact rfl
  callers := by
    intro i caller hi
    rw [Array.eq_of_mem_replicate (Array.mem_of_getElem? hi)]
    exact .check
  readers := by
    intro i reader hi
    rw [Array.eq_of_mem_replicate (Array.mem_of_getElem? hi)]
    exact .check
  lock := by
    intro i caller hi hinside
    rw [Array.eq_of_mem_replicate (Array.mem_of_getElem? hi)] at hinside
    contradiction
  busy := nofun

/-- A caller moves.  If the stage moves with it, it holds the lock. -/
theorem Coherent.moveCaller (h : Coherent storage components stage p) {a b : QueryCaller}
    (hi : p.callers[i]? = some a) {s : Storage} {ref : QueryRef} {stores : List QueryField}
    {holder : Option Nat} (href : ref = stage'.ref) (hstores : stores = stage'.stores)
    (hstage : stage' = stage ∨ a.isInside = true ∧ stage.isPublished = false)
    (hb : Stands storage components stage' b)
    (hothers : ∀ j, j ≠ i → p.holder = some j → holder = some j)
    (hinside : b.isInside = true → holder = some i)
    (hbusy : stage'.isBusy = true → holder.isSome = true)
    (hsearched : ∀ refusals, refusals + a.isRefused.toNat = p.refusals + b.isRefused.toNat →
      Searched storage components stage' s refusals) :
    Coherent storage components stage'
      (({ p with storage := s, ref, stores, holder } : QueryPublication).moveCaller i b) := by
  have hget : ∀ {j : Nat} {caller : QueryCaller},
      (p.callers.setIfInBounds i b)[j]? = some caller →
        j = i ∧ caller = b ∨ j ≠ i ∧ p.callers[j]? = some caller := by
    intro j caller hj
    obtain ⟨hlt, -⟩ := Array.getElem?_eq_some_iff.1 hi
    by_cases hji : j = i
    · subst hji
      rw [Array.getElem?_setIfInBounds_self_of_lt hlt] at hj
      exact .inl ⟨rfl, (Option.some.inj hj).symm⟩
    · rw [Array.getElem?_setIfInBounds_ne (Ne.symm hji)] at hj
      exact .inr ⟨hji, hj⟩
  -- While one caller is inside, the places of the others do not depend on the stage.
  have houtside : ∀ {j : Nat} {caller : QueryCaller}, j ≠ i → p.callers[j]? = some caller →
      a.isInside = true → caller.isInside = false := by
    intro j caller hji hj ha
    refine Bool.eq_false_iff.2 fun hcaller => hji ?_
    exact Option.some.inj ((h.lock hj hcaller).symm.trans (h.lock hi ha))
  refine ⟨h.components_eq, href, hstores, ?_, ?_, ?_, ?_, hbusy⟩
  · exact hsearched _ (refusals_moveCaller (p := { p with storage := s, ref, stores, holder }) hi)
  · intro j caller hj
    rcases hget hj with ⟨rfl, rfl⟩ | ⟨hji, hj⟩
    · exact hb
    · rcases hstage with rfl | ⟨ha, hstage⟩
      · exact h.callers hj
      · exact (h.callers hj).of_outside (houtside hji hj ha) hstage
  · intro j reader hj
    rcases hstage with rfl | ⟨-, hstage⟩
    · exact h.readers hj
    · exact (h.readers hj).of_unpublished hstage
  · intro j caller hj hcaller
    rcases hget hj with ⟨rfl, rfl⟩ | ⟨hji, hj⟩
    · exact hinside hcaller
    · exact hothers j hji (h.lock hj hcaller)

section Moves

variable {a b : QueryCaller}

theorem Coherent.searched_moved (h : Coherent storage components stage p)
    (hresolved : stage'.resolved? = stage.resolved?) (hrefused : a.isRefused = b.isRefused)
    {refusals : Nat} (hrefusals : refusals + a.isRefused.toNat = p.refusals + b.isRefused.toNat) :
    Searched storage components stage' p.storage refusals := by
  rw [hrefused] at hrefusals
  rw [Searched, hresolved, Nat.add_right_cancel hrefusals]
  exact h.searched

/-- The lock stays with whom it is. -/
theorem Coherent.moveOn (h : Coherent storage components stage p) (hi : p.callers[i]? = some a)
    (hb : Stands storage components stage b) (hinside : b.isInside = true → a.isInside = true)
    (hrefused : a.isRefused = b.isRefused) :
    Coherent storage components stage (p.moveCaller i b) :=
  h.moveCaller hi h.ref h.stores (.inl rfl) hb (fun _ _ hj => hj)
    (fun hb => h.lock hi (hinside hb)) h.busy fun _ => h.searched_moved rfl hrefused

/-- The lock is given back. -/
theorem Coherent.moveOut (h : Coherent storage components stage p) (hi : p.callers[i]? = some a)
    (hb : Stands storage components stage b) (ha : a.isInside = true) (houtside : b.isInside = false)
    (hidle : stage.isBusy = false) (hrefused : a.isRefused = b.isRefused) :
    Coherent storage components stage ({ p with holder := none }.moveCaller i b) := by
  have hothers : ∀ j, j ≠ i → p.holder = some j → none = some j := fun j hji hj =>
    absurd (Option.some.inj (hj.symm.trans (h.lock hi ha))) hji
  exact h.moveCaller hi h.ref h.stores (.inl rfl) hb hothers
    (fun hb => absurd hb (by simp [houtside])) (fun hbusy => absurd hbusy (by simp [hidle]))
    fun _ => h.searched_moved rfl hrefused

/-- A field is stored. -/
theorem Coherent.moveUp (h : Coherent storage components stage p) (hi : p.callers[i]? = some a)
    (hb : Stands storage components stage' b) (ha : a.isInside = true)
    (hunpublished : stage.isPublished = false) (hresolved : stage'.resolved? = stage.resolved?)
    (hrefused : a.isRefused = b.isRefused) :
    Coherent storage components stage'
      ({ p with ref := stage'.ref, stores := stage'.stores }.moveCaller i b) := by
  have hholder := h.lock hi ha
  exact h.moveCaller hi rfl rfl (.inr ⟨ha, hunpublished⟩) hb (fun _ _ hj => hj)
    (fun _ => hholder) (fun _ => hholder ▸ rfl) fun _ => h.searched_moved hresolved hrefused

end Moves

theorem Coherent.moveReader (h : Coherent storage components stage p) {b : QueryReader}
    (hb : Reads stage b) : Coherent storage components stage (p.moveReader i b) := by
  refine { h with readers := ?_ }
  intro j reader hj
  rw [QueryPublication.moveReader, Array.getElem?_setIfInBounds] at hj
  split at hj
  · split at hj
    · exact (Option.some.inj hj) ▸ hb
    · contradiction
  · exact h.readers hj

theorem Coherent.readerStep (h : Coherent storage components stage p) {reader : QueryReader}
    (hi : p.readers[i]? = some reader) :
    Coherent storage components stage (p.readerStep i reader) := by
  cases h.readers hi with
  | check =>
      rw [QueryPublication.readerStep]
      split
      next hresolved =>
        rw [h.ref] at hresolved
        obtain ⟨r, rfl⟩ := Stage.isPublished_of_isResolved hresolved
        rw [h.ref]
        exact h.moveReader .readOffset
      next => exact h.moveReader .unseen
  | unseen | seen => exact h
  | readOffset =>
      rw [QueryPublication.readerStep, h.ref]
      exact h.moveReader .readNumComponents
  | readNumComponents =>
      rw [QueryPublication.readerStep, h.ref]
      exact h.moveReader .seen

/-- The query resolves to the same, no matter how many searches were made before. -/
theorem resolve_setScans (storage : Storage) (components : List ComponentId) (scans : Nat) :
    let resolution := (storage.setScans scans).queries.resolve components storage.archetypes.toList
    resolution.1 = storage.resolution components ∧
      ((∃ r, resolution.1 = .ok r ∧ resolution.2.scans ≤ scans + 1) ∨
        resolution.1 = .error (.queryDataFull storage.queries.maxData) ∧
          resolution.2 = { storage.queries with scans := scans + 1 }) := by
  intro resolution
  refine ⟨?_, ?_⟩
  · obtain ⟨scans', hresolve⟩ :=
      storage.queries.resolve_scans scans components storage.archetypes.toList
    have hfst := congrArg Prod.fst hresolve
    exact hfst
  · cases hmemo : (storage.setScans scans).queries.bySignature.lookup components with
    | some r =>
        have hresolution : resolution = _ := QueryCache.resolve_of_hit hmemo
        rw [hresolution]
        exact .inl ⟨r, rfl, Nat.le_succ scans⟩
    | none =>
        have hresolution : resolution = _ :=
          QueryCache.resolve_of_miss storage.archetypes.toList hmemo
        rw [hresolution]
        dsimp only
        split
        · exact .inr ⟨rfl, rfl⟩
        · exact .inl ⟨_, rfl, Nat.le_refl _⟩

/-- No caller is refused if the query resolves. -/
theorem Coherent.refusals_eq_zero (h : Coherent storage components stage p) {r : ResolvedQuery}
    (hr : storage.resolution components = .ok r) : p.refusals = 0 := by
  refine List.countP_eq_zero.2 fun caller hmem hrefused => ?_
  obtain ⟨j, hj⟩ := Array.getElem?_of_mem (Array.mem_toList_iff.1 hmem)
  obtain ⟨e, he⟩ := (h.callers hj).error_of_isRefused hrefused
  exact nomatch hr.symm.trans he

theorem Coherent.resolves (h : Coherent storage components .unresolved p)
    (hi : p.callers[i]? = some .resolve) :
    ∃ stage', Coherent storage components stage' (p.callerStep i .resolve) := by
  have hstorage : p.storage = storage.setScans (storage.scanCount + p.refusals) := h.searched
  have hholder := h.lock hi rfl
  obtain ⟨hsame, hresult⟩ :=
    resolve_setScans storage components (storage.scanCount + p.refusals)
  have hresolve : p.storage.queries.resolve p.components p.storage.archetypes.toList =
      (storage.setScans (storage.scanCount + p.refusals)).queries.resolve components
        storage.archetypes.toList := by
    rw [h.components_eq, hstorage]
    rfl
  rw [callerStep, hresolve]
  generalize (storage.setScans (storage.scanCount + p.refusals)).queries.resolve components
    storage.archetypes.toList = resolution at hsame hresult ⊢
  obtain ⟨result, queries⟩ := resolution
  rcases hresult with ⟨r, rfl, hscans⟩ | ⟨rfl, rfl⟩
  · have hstands : Stands storage components (.resolved r) (.storeOffset r) := .storeOffset
    refine ⟨.resolved r, h.moveCaller hi h.ref h.stores (.inr ⟨rfl, rfl⟩) hstands
      (fun _ _ hj => hj) (fun _ => hholder) (fun _ => hholder ▸ rfl) fun refusals _ => ?_⟩
    rw [h.refusals_eq_zero hsame.symm] at hscans
    exact ⟨hsame.symm, hscans⟩
  · refine ⟨.unresolved, h.moveCaller hi h.ref h.stores (.inl rfl) (.releaseRefused hsame.symm)
      (fun _ _ hj => hj) (fun _ => hholder) nofun fun refusals hrefusals => ?_⟩
    have hone : refusals = p.refusals + 1 := hrefusals
    rw [hone, hstorage]
    exact rfl

theorem Coherent.callerStep
    (hcount : ∀ r, storage.resolution components = .ok r → (QueryRef.publish r).isResolved)
    (h : Coherent storage components stage p) {caller : QueryCaller}
    (hi : p.callers[i]? = some caller) :
    ∃ stage', Coherent storage components stage' (p.callerStep i caller) := by
  cases h.callers hi with
  | check =>
      rw [QueryPublication.callerStep]
      split
      next hresolved =>
        rw [h.ref] at hresolved
        obtain ⟨r, rfl⟩ := Stage.isPublished_of_isResolved hresolved
        exact ⟨_, h.moveOn hi .returned nofun rfl⟩
      next =>
        split
        · exact ⟨_, h.moveOn hi .returnedUnknown nofun rfl⟩
        · exact ⟨_, h.moveOn hi .acquire nofun rfl⟩
  | acquire =>
      rw [QueryPublication.callerStep]
      split
      next => exact ⟨stage, h⟩
      next hfree =>
        -- Nobody is inside, so the query is not resolved yet or published already.
        have hidle : stage.isBusy = false :=
          Bool.eq_false_iff.2 fun hbusy => absurd (h.busy hbusy) (by simp [hfree])
        have hothers : ∀ j, j ≠ i → p.holder = some j → some i = some j :=
          fun j _ hj => nomatch hfree.symm.trans hj
        have hrecheck : Stands storage components stage .recheck := by
          cases stage with
          | unresolved => exact .recheck
          | published r => exact .recheckLate
          | _ => contradiction
        exact ⟨stage, h.moveCaller hi h.ref h.stores (.inl rfl) hrecheck hothers (fun _ => rfl)
          (fun _ => rfl) fun _ => h.searched_moved rfl rfl⟩
  | recheck =>
      rw [QueryPublication.callerStep, h.ref]
      exact ⟨.unresolved, h.moveOn hi .resolve (fun _ => rfl) rfl⟩
  | @recheckLate r =>
      have hresolved : (Stage.published r).ref.isResolved = true := hcount r h.searched.1
      rw [QueryPublication.callerStep, h.ref, if_pos hresolved]
      exact ⟨_, h.moveOn hi .release (fun _ => rfl) rfl⟩
  | resolve => exact h.resolves hi
  | storeOffset =>
      rw [QueryPublication.callerStep, store, h.ref, h.stores]
      exact ⟨.offset _, h.moveUp hi .storeNumComponents rfl rfl rfl rfl⟩
  | storeNumComponents =>
      rw [QueryPublication.callerStep, store, h.ref, h.stores]
      exact ⟨.numComponents _, h.moveUp hi .storeNumMatching rfl rfl rfl rfl⟩
  | storeNumMatching =>
      rw [QueryPublication.callerStep, store, h.ref, h.stores]
      exact ⟨.published _, h.moveUp hi .release rfl rfl rfl rfl⟩
  | release => exact ⟨_, h.moveOut hi .returned rfl rfl rfl rfl⟩
  | @releaseRefused e hresolution =>
      have hrefused : (QueryCaller.release (.error e)).isRefused =
          (QueryCaller.returned (.error e)).isRefused := by cases e <;> rfl
      exact ⟨_, h.moveOut hi (.returnedRefused hresolution) rfl rfl rfl hrefused⟩
  | returned | returnedUnknown | returnedRefused => exact ⟨_, h⟩

theorem Coherent.step
    (hcount : ∀ r, storage.resolution components = .ok r → (QueryRef.publish r).isResolved)
    (h : Coherent storage components stage p) (thread : QueryThread) :
    ∃ stage', Coherent storage components stage' (p.step thread) := by
  cases thread with
  | caller i =>
      rw [QueryPublication.step]
      split
      next hi => exact h.callerStep hcount hi
      next => exact ⟨stage, h⟩
  | reader i =>
      rw [QueryPublication.step]
      split
      next hi => exact ⟨stage, h.readerStep hi⟩
      next => exact ⟨stage, h⟩

theorem Coherent.follow
    (hcount : ∀ r, storage.resolution components = .ok r → (QueryRef.publish r).isResolved)
    (h : Coherent storage components stage p) (schedule : List QueryThread) :
    ∃ stage', Coherent storage components stage' (p.follow schedule) := by
  induction schedule generalizing p stage with
  | nil => exact ⟨stage, h⟩
  | cons thread schedule ih =>
      obtain ⟨stage', h'⟩ := h.step hcount thread
      exact ih h'

/-! ## One publication -/

/-- A caller that runs alone does what a request does. -/
theorem follow_alone (storage : Storage) (components : List ComponentId) :
    let p := (start storage components 1 0).follow (List.replicate 8 (.caller 0))
    let made := storage.makeQuery components .unresolved
    p.callers = #[.returned made.1] ∧ p.ref = made.2.1 ∧ p.storage = made.2.2 := by
  cases hfind : components.find? (!storage.registry.isRegistered ·) with
  | some id =>
      simp [follow, start, step, callerStep, moveCaller, Storage.makeQuery, hfind,
        List.replicate]
  | none =>
      rcases hresolve : storage.queries.resolve components storage.archetypes.toList with
        ⟨e | r, queries⟩
      · simp [follow, start, step, callerStep, moveCaller, Storage.makeQuery, hfind,
          hresolve, List.replicate]
      · simp [follow, start, step, callerStep, moveCaller, store, Storage.makeQuery, hfind,
          hresolve, List.replicate, QueryRef.publish]

theorem Coherent.searches (h : Coherent storage components stage p) :
    p.storage.scanCount ≤ storage.scanCount + 1 ∨
      storage.resolution components = .error (.queryDataFull storage.queries.maxData) ∧
        p.storage.scanCount = storage.scanCount + p.refusals ∧ p.stores = [] := by
  cases stage with
  | unresolved =>
      have hstorage : p.storage = storage.setScans (storage.scanCount + p.refusals) := h.searched
      have hscans : p.storage.scanCount = storage.scanCount + p.refusals := hstorage ▸ rfl
      obtain ⟨hsame, hresult⟩ := resolve_setScans storage components 0
      rw [hsame] at hresult
      rcases hresult with ⟨r, hr, -⟩ | ⟨hfull, -⟩
      · exact .inl (by rw [hscans, h.refusals_eq_zero hr]; exact Nat.le_succ _)
      · exact .inr ⟨hfull, hscans, h.stores⟩
  | resolved | offset | numComponents | published => exact .inl h.searched.2

/-- The archetypes are searched once at most, unless their matches do not fit: then each caller
that is refused has searched them, and nothing is stored. -/
theorem published_once (storage : Storage) (components : List ComponentId)
    (hcount : ∀ r, storage.resolution components = .ok r →
      r.numMatching ≠ QueryRef.mark)
    (numCallers numReaders : Nat) (schedule : List QueryThread) :
    let p := (start storage components numCallers numReaders).follow schedule
    (p.storage.scanCount ≤ storage.scanCount + 1 ∨
        storage.resolution components = .error (.queryDataFull storage.queries.maxData) ∧
          p.storage.scanCount = storage.scanCount + p.refusals ∧ p.stores = []) ∧
      (∀ field, p.stores.count field ≤ 1) ∧
      (∀ i : Nat, p.callers[i]? = some (.returned (.ok ())) → p.ref.isResolved = true) ∧
      ∀ (i : Nat) (seen : QueryRef), p.readers[i]? = some (.returned (some seen)) →
        ∃ r, storage.resolution components = .ok r ∧ seen = .publish r ∧ p.ref = seen := by
  intro p
  have hresolved : ∀ r, storage.resolution components = .ok r →
      (QueryRef.publish r).isResolved = true :=
    fun r hr => QueryRef.isResolved_publish.2 (hcount r hr)
  obtain ⟨stage, h⟩ :=
    (coherent_start storage components numCallers numReaders).follow hresolved schedule
  change Coherent storage components stage p at h
  refine ⟨?_, fun field => h.stores ▸ stage.count_stores_le field, fun i hi => ?_,
    fun i seen hi => ?_⟩
  · exact h.searches
  · cases h.callers hi with
    | returned => exact h.ref ▸ hresolved _ h.searched.1
  · cases h.readers hi with
    | seen => exact ⟨_, h.searched.1, rfl, h.ref⟩

namespace Crowded

def config (room : UInt32) : StateConfig where
  numWorlds := 1
  maxRowsPerTable := 1
  maxComponents := 2
  maxArchetypes := QueryRef.mark
  maxArchetypeComponents := 0
  maxQueryData := room
  maxEntities := 1

def initial (room : UInt32) : Storage :=
  ⟨config room, .builtins 2, #[], #[], .empty room, .empty 1⟩

/-- Archetypes without components. -/
def calls (n : Nat) : List StorageCall := List.replicate n (.registerArchetype [])

def crowd (room : UInt32) (n : Nat) : Storage := (initial room).after (calls n)

theorem crowd_succ (room : UInt32) (n : Nat) :
    crowd room (n + 1) = ((crowd room n).perform (.registerArchetype [])).2 := by
  rw [crowd, calls, List.replicate_succ', Storage.after, List.foldl_append]
  rfl

theorem crowd_eq (room : UInt32) {n : Nat} (hn : n ≤ QueryRef.mark.toNat) :
    ∃ archetypes : Array Archetype, archetypes.size = n ∧
      crowd room n = { initial room with archetypes } := by
  obtain ⟨table, htable⟩ : ∃ table, Table.new (Archetype.columnInfos []) 1 1 = .ok table :=
    ⟨_, rfl⟩
  induction n with
  | zero => exact ⟨#[], rfl, rfl⟩
  | succ n ih =>
      obtain ⟨archetypes, hsize, hcrowd⟩ := ih (Nat.le_of_succ_le hn)
      refine ⟨archetypes.push ⟨0, [], table⟩, by rw [Array.size_push, hsize], ?_⟩
      have hroom : ¬ QueryRef.mark.toNat ≤ archetypes.size := by omega
      have hcheck : ({ initial room with archetypes } : Storage).checkArchetype [] = .ok [] :=
        if_neg hroom
      have htable' : Table.new (Archetype.columnInfos [])
        ({ initial room with archetypes } : Storage).config.maxRowsPerTable
        ({ initial room with archetypes } : Storage).config.numWorlds = .ok table := htable
      rw [crowd_succ, hcrowd, Storage.perform_registerArchetype, Storage.registerArchetype, hcheck]
      dsimp only
      rw [htable']
      rfl

/-- All archetypes match a list without components. -/
theorem makeQuery_crowd {n : Nat} (hn : n ≤ QueryRef.mark.toNat) :
    ((crowd QueryRef.mark n).makeQuery [] .unresolved).1 = .ok () ∧
      ((crowd QueryRef.mark n).makeQuery [] .unresolved).2.1 = .publish ⟨0, .ofNat n, 0⟩ := by
  obtain ⟨archetypes, hsize, hcrowd⟩ := crowd_eq QueryRef.mark hn
  have hcount : archetypes.toList.countP (fun archetype => [].all archetype.hasComponent) = n :=
    (List.countP_eq_length.2 fun _ _ => rfl).trans hsize
  have hzero : (UInt32.ofNat 0).toNat = 0 := rfl
  have hroom : ¬ QueryRef.mark.toNat < (UInt32.ofNat 0).toNat + n * (0 + 1) := by omega
  have hmemo : (QueryCache.empty QueryRef.mark).bySignature.lookup [] = none := rfl
  have hmiss := QueryCache.resolve_of_miss archetypes.toList hmemo
  rw [hcount] at hmiss
  have hresolve : ({ initial QueryRef.mark with archetypes } : Storage).queries.resolve []
      archetypes.toList = _ := hmiss.trans (if_neg hroom)
  rw [hcrowd]
  simp [Storage.makeQuery, hresolve, QueryCache.empty]

/-- So many matches look as if there were no answer yet. -/
theorem follow_crowd {n : Nat} (hn : n = QueryRef.mark.toNat) :
    let p := (start (crowd QueryRef.mark n) [] 1 0).follow (List.replicate 8 (.caller 0))
    p.callers = #[.returned (.ok ())] ∧ p.ref.isResolved = false := by
  obtain ⟨hcallers, href, -⟩ := follow_alone (crowd QueryRef.mark n) []
  obtain ⟨hresult, hpublish⟩ := makeQuery_crowd (Nat.le_of_eq hn)
  have hmark : UInt32.ofNat n = QueryRef.mark := by rw [hn, UInt32.ofNat_toNat]
  rw [hresult] at hcallers
  rw [hpublish, hmark] at href
  exact ⟨hcallers, congrArg QueryRef.isResolved href⟩

/-- The threads take turns, and the second caller waits for the first. -/
def schedule : List QueryThread :=
  [.caller 0, .caller 1, .caller 0, .caller 1, .caller 0, .caller 0, .caller 0, .caller 0,
    .caller 0, .reader 0, .caller 0, .caller 1, .reader 0, .caller 1, .reader 0, .caller 1]

end Crowded

theorem published_once_sample :
    let p := (start (Crowded.crowd 1 1) [] 2 1).follow Crowded.schedule
    p.storage.scanCount ≤ 1 ∧ p.ref.isResolved = true ∧ p.ref = ⟨0, 0, 1⟩ := by
  intro p
  have hresolution : (Crowded.crowd 1 1).resolution [] = .ok ⟨0, 1, 0⟩ := rfl
  have hcount : ∀ r, (Crowded.crowd 1 1).resolution [] = .ok r →
      r.numMatching ≠ QueryRef.mark := by
    intro r hr
    cases hresolution.symm.trans hr
    decide
  obtain ⟨hscans, -, hcallers, hreaders⟩ :=
    published_once (Crowded.crowd 1 1) [] hcount 2 1 Crowded.schedule
  refine ⟨?_, hcallers 1 rfl, ?_⟩
  · rcases hscans with hscans | ⟨hfull, -⟩
    · exact hscans
    · exact nomatch hresolution.symm.trans hfull
  · obtain ⟨_, -, -, hseen⟩ := hreaders 0 ⟨0, 0, 1⟩ rfl
    exact hseen

theorem published_once_fails :
    let full := (start (Crowded.crowd 0 1) [] 2 0).follow
      (List.replicate 5 (.caller 0) ++ List.replicate 5 (.caller 1))
    let crowded := (start (Crowded.crowd QueryRef.mark QueryRef.mark.toNat) [] 1 0).follow
      (List.replicate 8 (.caller 0))
    (full.storage.scanCount = 2 ∧ full.refusals = 2) ∧
      crowded.callers = #[.returned (.ok ())] ∧ crowded.ref.isResolved = false :=
  ⟨⟨rfl, rfl⟩, Crowded.follow_crowd rfl⟩

end QueryPublication
end Lockstep
