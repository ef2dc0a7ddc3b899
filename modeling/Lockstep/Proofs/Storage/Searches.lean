import Lockstep.Proofs.Storage.Queries
import Lockstep.Storage.Account

/-!
# Searches

A request for a list that is not known searches all archetypes.  The words of its matches follow
from their number, and they are kept if there is room for them.  A request that fails leaves no
trace but the number of searches, on which no answer depends.
-/

namespace Lockstep

namespace QueryCache

theorem length_scan (components : List ComponentId) (archetypes : List Archetype) :
    (scan components archetypes).length =
      archetypes.countP fun archetype => components.all archetype.hasComponent := by
  have hsome : ∀ entry : Archetype × Nat, (if components.all entry.1.hasComponent then
      some (⟨entry.2, components.filterMap entry.1.columnIndex⟩ : QueryMatch) else none).isSome =
        components.all entry.1.hasComponent := by
    intro entry
    split <;> simp_all
  have hfirst := List.countP_map (p := fun a : Archetype => components.all a.hasComponent)
    (f := Prod.fst) (l := archetypes.zipIdx)
  rw [List.zipIdx_map_fst] at hfirst
  rw [scan, List.length_filterMap_eq_countP]
  simp only [hsome]
  exact hfirst.symm

theorem length_words_scan (components : List ComponentId) (archetypes : List Archetype) :
    ((scan components archetypes).flatMap QueryMatch.words).length =
      (archetypes.countP fun archetype => components.all archetype.hasComponent) *
        (components.length + 1) := by
  rw [(exact_scan components archetypes).length_words, length_scan]

variable {cache : QueryCache} {components : List ComponentId} {archetypes : List Archetype}

theorem resolve_of_hit {resolved : ResolvedQuery}
    (hit : cache.bySignature.lookup components = some resolved) :
    cache.resolve components archetypes = (.ok resolved, cache) := by
  rw [resolve, hit]

/-- A list that is not known is searched for.  Its matches are kept if there is room. -/
theorem resolve_of_miss (archetypes : List Archetype)
    (miss : cache.bySignature.lookup components = none) :
    cache.resolve components archetypes =
      let offset := UInt32.ofNat cache.data.size
      let numMatching := archetypes.countP fun archetype => components.all archetype.hasComponent
      if cache.maxData.toNat < offset.toNat + numMatching * (components.length + 1) then
        (.error (.queryDataFull cache.maxData), { cache with scans := cache.scans + 1 })
      else
        let resolved := ⟨offset, .ofNat numMatching, .ofNat components.length⟩
        (.ok resolved, {
          data := cache.data ++ ((scan components archetypes).flatMap QueryMatch.words).toArray
          maxData := cache.maxData
          bySignature := (components, resolved) :: cache.bySignature
          scans := cache.scans + 1 }) := by
  simp only [resolve, miss, length_words_scan, length_scan]

/-- The number of searches is counted and not read. -/
theorem resolve_scans (cache : QueryCache) (scans : Nat) (components : List ComponentId)
    (archetypes : List Archetype) : ∃ scans',
      ({ cache with scans } : QueryCache).resolve components archetypes =
        ((cache.resolve components archetypes).1,
          { (cache.resolve components archetypes).2 with scans := scans' }) := by
  unfold resolve
  cases cache.bySignature.lookup components with
  | some resolved => exact ⟨scans, rfl⟩
  | none =>
      refine ⟨scans + 1, ?_⟩
      dsimp only
      split <;> rfl

end QueryCache

namespace Storage

variable {s s' : Storage} {components : List ComponentId} {ref : QueryRef}

/-- What a request does to the cache, and what it depends on. -/
inductive Asked (s : Storage) (components : List ComponentId) (ref : QueryRef) :
    StorageAnswer → Storage → Prop
  | stays (hresolved : ref.isResolved = true) : Asked s components ref (.query (.ok ()) ref) s
  | unknown {c : ComponentId} (hunresolved : ref.isResolved = false) (hc : c ∈ components)
      (hunknown : s.registry.isRegistered c = false) :
      Asked s components ref (.query (.error (.unknownComponent c)) ref) s
  | recalls {resolved : ResolvedQuery} (hunresolved : ref.isResolved = false)
      (hregistered : ∀ c ∈ components, s.registry.isRegistered c = true)
      (hit : s.queries.bySignature.lookup components = some resolved) :
      Asked s components ref (.query (.ok ()) (.publish resolved)) s
  | overflows (hunresolved : ref.isResolved = false)
      (hregistered : ∀ c ∈ components, s.registry.isRegistered c = true)
      (miss : s.queries.bySignature.lookup components = none)
      (hfull : s.queries.maxData.toNat < s.queries.data.size + s.queryWords components) :
      Asked s components ref (.query (.error (.queryDataFull s.queries.maxData)) ref)
        (s.setScans (s.queries.scans + 1))
  | learns {resolved : ResolvedQuery} {queries : QueryCache} (hunresolved : ref.isResolved = false)
      (hregistered : ∀ c ∈ components, s.registry.isRegistered c = true)
      (miss : s.queries.bySignature.lookup components = none)
      (hroom : s.queries.data.size + s.queryWords components ≤ s.queries.maxData.toNat)
      (hsize : queries.data.size = s.queries.data.size + s.queryWords components)
      (hmax : queries.maxData = s.queries.maxData)
      (hmemo : queries.bySignature = (components, resolved) :: s.queries.bySignature)
      (hscans : queries.scans = s.queries.scans + 1)
      (hmatching : resolved.numMatching.toNat = s.numMatching components) :
      Asked s components ref (.query (.ok ()) (.publish resolved)) { s with queries }

theorem numMatching_lt (hroom : s.queries.data.size + s.queryWords components ≤
    s.queries.maxData.toNat) : s.numMatching components < UInt32.size := by
  calc
    s.numMatching components ≤ s.queryWords components :=
      Nat.le_mul_of_pos_right _ (Nat.succ_pos _)
    _ ≤ s.queries.maxData.toNat := Nat.le_trans (Nat.le_add_left _ _) hroom
    _ < UInt32.size := s.queries.maxData.toNat_lt_size

theorem asked (hbounded : s.queries.Bounded) (components : List ComponentId) (ref : QueryRef) :
    s.Asked components ref (s.perform (.makeQuery components ref)).1
      (s.perform (.makeQuery components ref)).2 := by
  rw [perform_makeQuery, makeQuery]
  cases hresolved : ref.isResolved with
  | true => exact .stays hresolved
  | false =>
      cases hfind : components.find? (!s.registry.isRegistered ·) with
      | some c =>
          have hunknown : s.registry.isRegistered c = false := by
            simpa using List.find?_some hfind
          exact .unknown hresolved (List.mem_of_find?_eq_some hfind) hunknown
      | none =>
          have hregistered : ∀ c ∈ components, s.registry.isRegistered c = true := by
            simpa using hfind
          simp only [Bool.false_eq_true, if_false]
          cases hmemo : s.queries.bySignature.lookup components with
          | some resolved =>
              rw [QueryCache.resolve_of_hit hmemo]
              exact .recalls hresolved hregistered hmemo
          | none =>
              have hresolve := QueryCache.resolve_of_miss s.archetypes.toList hmemo
              simp only [hbounded.toNat_offset] at hresolve
              by_cases hfull : s.queries.maxData.toNat
                  < s.queries.data.size + s.queryWords components
              · rw [hresolve.trans (if_pos hfull)]
                exact .overflows hresolved hregistered hmemo hfull
              · rw [hresolve.trans (if_neg hfull)]
                have hroom := Nat.le_of_not_lt hfull
                have hwords := QueryCache.length_words_scan components s.archetypes.toList
                exact .learns hresolved hregistered hmemo hroom
                  (Array.size_append.trans (congrArg (s.queries.data.size + ·) hwords)) rfl rfl rfl
                  (UInt32.toNat_ofNat_of_lt' (numMatching_lt hroom))

namespace Asked

variable {answer : StorageAnswer}

theorem unknown_iff (h : s.Asked components ref answer s') (hunresolved : ref.isResolved = false) :
    (∃ c, answer = .query (.error (.unknownComponent c)) ref) ↔
      ¬ ∀ c ∈ components, s.registry.isRegistered c = true := by
  cases h with
  | stays hresolved => exact absurd (hresolved.symm.trans hunresolved) (by decide)
  | unknown _ hc hunknown =>
      refine ⟨fun _ hall => ?_, fun _ => ⟨_, rfl⟩⟩
      exact absurd (hunknown.symm.trans (hall _ hc)) Bool.false_ne_true
  | recalls _ hregistered | overflows _ hregistered | learns _ hregistered =>
      exact ⟨fun ⟨_, hanswer⟩ => (nomatch hanswer), fun hnot => absurd hregistered hnot⟩

/-- A new list is found exactly when its components are registered and its words fit.  The
reference is resolved then, unless the matches are as many as the mark says. -/
theorem new_iff (h : s.Asked components ref answer s') (hunresolved : ref.isResolved = false)
    (miss : s.queries.bySignature.lookup components = none) :
    let registered := ∀ c ∈ components, s.registry.isRegistered c = true
    let fits := s.queries.data.size + s.queryWords components ≤ s.queries.maxData.toNat
    ((∃ ref', answer = .query (.ok ()) ref') ↔ registered ∧ fits) ∧
      (answer = .query (.error (.queryDataFull s.queries.maxData)) ref ↔ registered ∧ ¬ fits) ∧
      ∀ result ref', answer = .query result ref' → (ref'.isResolved = true ↔
        registered ∧ fits ∧ s.numMatching components ≠ QueryRef.mark.toNat) := by
  have hstill : ref.isResolved ≠ true := Bool.eq_false_iff.1 hunresolved
  cases h with
  | stays hresolved => exact absurd hresolved hstill
  | unknown _ hc hunknown =>
      have hnot : ¬ ∀ c ∈ components, s.registry.isRegistered c = true := fun hall =>
        absurd (hunknown.symm.trans (hall _ hc)) Bool.false_ne_true
      refine ⟨⟨fun ⟨_, hanswer⟩ => (nomatch hanswer), fun hboth => absurd hboth.1 hnot⟩,
        ⟨fun hanswer => (nomatch hanswer), fun hboth => absurd hboth.1 hnot⟩, ?_⟩
      rintro _ _ ⟨⟩
      exact ⟨fun hresolved => absurd hresolved hstill, fun hall => absurd hall.1 hnot⟩
  | recalls _ _ hit => exact absurd (hit.symm.trans miss) (by simp)
  | overflows _ hregistered _ hfull =>
      have hnot := Nat.not_le_of_lt hfull
      refine ⟨⟨fun ⟨_, hanswer⟩ => (nomatch hanswer), fun hboth => absurd hboth.2 hnot⟩,
        ⟨fun _ => ⟨hregistered, hnot⟩, fun _ => rfl⟩, ?_⟩
      rintro _ _ ⟨⟩
      exact ⟨fun hresolved => absurd hresolved hstill, fun hall => absurd hall.2.1 hnot⟩
  | learns _ hregistered _ hroom _ _ _ _ hmatching =>
      refine ⟨⟨fun _ => ⟨hregistered, hroom⟩, fun _ => ⟨_, rfl⟩⟩,
        ⟨fun hanswer => (nomatch hanswer), fun hboth => absurd hroom hboth.2⟩, ?_⟩
      rintro _ _ ⟨⟩
      rw [QueryRef.isResolved_publish, Ne, ← UInt32.toNat_inj, hmatching]
      exact ⟨fun hmark => ⟨hregistered, hroom, hmark⟩, fun hall => hall.2.2⟩

end Asked

/-! ## Searches leave no trace -/

variable {call : StorageCall}

theorem userInfos_setQueries (s : Storage) (queries : QueryCache)
    (seen components : List ComponentId) :
    ({ s with queries } : Storage).userInfos seen components = s.userInfos seen components := by
  induction components generalizing seen with
  | nil => rfl
  | cons c rest ih => simp only [userInfos, ih]

theorem perform_setQueries (s : Storage) (queries : QueryCache) (hcall : call.isRequest = false) :
    ({ s with queries } : Storage).perform call =
      ((s.perform call).1, { (s.perform call).2 with queries }) := by
  cases call with
  | registerComponent info =>
      simp only [perform_registerComponent, registerComponent]
      cases s.registry.register info <;> rfl
  | registerComponentWithId id info =>
      simp only [perform_registerComponentWithId, registerComponentWithId]
      cases s.registry.registerWithId id info <;> rfl
  | registerComponentType type =>
      simp only [perform_registerComponentType, registerComponentType]
      cases s.registry.registerType type <;> rfl
  | registerArchetype components =>
      simp only [perform_registerArchetype, registerArchetype]
      have hcheck : ({ s with queries } : Storage).checkArchetype components =
          s.checkArchetype components := by
        simp only [checkArchetype, userInfos_setQueries]
      rw [hcheck]
      cases s.checkArchetype components with
      | error e => rfl
      | ok infos =>
          dsimp only
          cases Table.new (Archetype.columnInfos infos) s.config.maxRowsPerTable
              s.config.numWorlds <;> rfl
  | makeEntity a world =>
      have harchetype : ({ s with queries } : Storage).archetype a = s.archetype a := rfl
      simp only [perform_makeEntity, makeEntity, harchetype]
      cases s.archetype a with
      | error e => rfl
      | ok archetype =>
          dsimp only
          cases s.entities.allocate with
          | none => rfl
          | some result =>
              dsimp only
              cases archetype.table.allocRow <;> rfl
  | destroyEntity e =>
      simp only [perform_destroyEntity, destroyEntity?]
      cases s.entities.release? e <;> rfl
  | clearTemporaries a =>
      have harchetype : ({ s with queries } : Storage).archetype a = s.archetype a := rfl
      simp only [perform_clearTemporaries, clearTemporaries, harchetype]
      cases s.archetype a <;> rfl
  | makeQuery => contradiction
  | setComponent e c value =>
      have hlocate : ({ s with queries } : Storage).locateComponent e c value.info =
          s.locateComponent e c value.info := rfl
      simp only [perform_setComponent, setComponent, hlocate]
      cases s.locateComponent e c value.info with
      | error error => rfl
      | ok result =>
          obtain ⟨location, archetype, col⟩ := result
          dsimp only [bind, Except.bind]
          cases archetype.table.set col location.row value with
          | error fault => rfl
          | ok found => cases found <;> rfl
  | allocRows a count =>
      have harchetype : ({ s with queries } : Storage).archetype a = s.archetype a := rfl
      simp only [perform_allocRows, allocRows, harchetype]
      cases s.archetype a with
      | error e => rfl
      | ok archetype =>
          dsimp only [bind, Except.bind]
          cases archetype.table.allocRows count <;> rfl

/-- No answer depends on the number of searches. -/
theorem perform_setScans (s : Storage) (scans : Nat) (call : StorageCall) :
    ∃ scans', (s.setScans scans).perform call =
      ((s.perform call).1, (s.perform call).2.setScans scans') := by
  cases hcall : call.isRequest with
  | false =>
      refine ⟨scans, (s.perform_setQueries _ hcall).trans ?_⟩
      rw [setScans, (s.keeps_perform call hcall).queries]
  | true =>
      cases call with
      | makeQuery components ref =>
          rw [perform_makeQuery, perform_makeQuery, makeQuery, makeQuery]
          cases ref.isResolved with
          | true => exact ⟨scans, rfl⟩
          | false =>
              have hregistry : (s.setScans scans).registry = s.registry := rfl
              rw [hregistry]
              cases components.find? (!s.registry.isRegistered ·) with
              | some c => exact ⟨scans, rfl⟩
              | none =>
                  obtain ⟨scans', hresolve⟩ :=
                    s.queries.resolve_scans scans components s.archetypes.toList
                  have hqueries : (s.setScans scans).queries.resolve components
                      (s.setScans scans).archetypes.toList = _ := hresolve
                  rw [hqueries]
                  refine ⟨scans', ?_⟩
                  rcases s.queries.resolve components s.archetypes.toList with ⟨result, queries⟩
                  cases result <;> rfl
      | _ => contradiction

end Storage

namespace Session

variable {t t' : Session}

/-- Sessions that differ in the number of searches only. -/
structure SameButScans (t t' : Session) : Prop where
  refs : t'.refs = t.refs
  storage : ∃ scans, t'.storage = t.storage.setScans scans

namespace SameButScans

theorem exchange (h : SameButScans t t') (call : SessionCall) :
    t'.exchange call = t.exchange call := by
  obtain ⟨scans, hstorage⟩ := h.storage
  have hcall : t'.toCall call = t.toCall call := by
    cases call <;> simp only [toCall, h.refs]
  obtain ⟨scans', hperform⟩ := t.storage.perform_setScans scans (t.toCall call)
  rw [Session.exchange, Session.exchange, hcall, hstorage, hperform]

theorem next (h : SameButScans t t') (call : SessionCall) :
    SameButScans (t.next call) (t'.next call) := by
  obtain ⟨scans, hstorage⟩ := h.storage
  have hcall : t'.toCall call = t.toCall call := by
    cases call <;> simp only [toCall, h.refs]
  obtain ⟨scans', hperform⟩ := t.storage.perform_setScans scans (t.toCall call)
  refine ⟨?_, scans', ?_⟩
  · funext q
    simp only [Session.next, h.exchange, h.refs]
  · rw [Session.next, Session.next, hcall, hstorage, hperform]

theorem after (h : SameButScans t t') (calls : List SessionCall) :
    t'.exchanges calls = t.exchanges calls ∧ SameButScans (t.after calls) (t'.after calls) := by
  induction calls generalizing t t' with
  | nil => exact ⟨rfl, h⟩
  | cons call calls ih =>
      obtain ⟨hexchanges, hafter⟩ := ih (h.next call)
      exact ⟨by rw [exchanges, exchanges, h.exchange, hexchanges], hafter⟩

theorem setScans (h : SameButScans t t') :
    t'.storage = t.storage.setScans t'.storage.scanCount := by
  obtain ⟨scans, hstorage⟩ := h.storage
  rw [hstorage]
  rfl

end SameButScans

/-- A request that ends in an error leaves all references as they are, and of the storage all
but the number of searches. -/
theorem sameButScans_of_error {q : Nat} {components : List ComponentId} {e : StorageError}
    (h : (t.exchange (.makeQuery q components)).answer.error? = some e) :
    SameButScans t (t.next (.makeQuery q components)) := by
  have hrequest := t.storage.requested components (t.refs q)
  rcases hperform : t.storage.perform (.makeQuery components (t.refs q)) with ⟨answer, s'⟩
  rw [hperform] at hrequest
  simp only [exchange, toCall, hperform] at h
  cases hrequest with
  | stays | recalls | learns => contradiction
  | @refuses _ queries _ hdata hmax hmemo =>
      refine ⟨?_, queries.scans, ?_⟩
      · funext q'
        simp only [next, exchange, toCall, hperform]
        split
        · rename_i hq
          rw [hq]
        · rfl
      · simp only [next, toCall, hperform, Storage.setScans, ← hdata, ← hmax, ← hmemo]

end Session
end Lockstep
