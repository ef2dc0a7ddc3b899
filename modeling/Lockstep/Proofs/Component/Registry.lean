import Lockstep.Proofs.Component.Slots
import Lockstep.Proofs.Word
import Mathlib.Data.List.Nodup

/-!
# A component registry and its history

Main statement: whatever is registered, and in which way, each slot is filled at most once and
keeps its layout, each type has the slot that its registration was given, and the next slot
given out is the lowest free one.  A registration that fails leaves no trace.
-/

namespace Lockstep
namespace ComponentRegistry

variable {r r' : ComponentRegistry} {id : ComponentId} {info : TypeInfo} {type : ValueType}
  {filled : List (ComponentId × TypeInfo)} {named : List (ValueType × ComponentId)}
  {history : List RegistryExchange} {max : UInt32} {i : Nat}

/-- The slots of the registry are those that have been filled, each of them once. -/
structure HasSlots (max : UInt32) (filled : List (ComponentId × TypeInfo))
    (r : ComponentRegistry) : Prop where
  size : r.slots.size = max.toNat
  hint : ∀ i < r.nextFree, r.IsFilled i
  info?_iff : ∀ id info, r.info? id = some info ↔ (id, info) ∈ filled
  nodup : (filled.map Prod.fst).Nodup
  len : r.len = filled.length

theorem HasSlots.size_lt (h : HasSlots max filled r) : r.slots.size < 2 ^ 32 :=
  h.size ▸ max.toNat_lt

theorem countP_setIfInBounds {slots : Array (Option TypeInfo)} (hfree : slots[i]? = some none)
    (info : TypeInfo) : (slots.setIfInBounds i (some info)).countP (·.isSome) =
      slots.countP (·.isSome) + 1 := by
  obtain ⟨hlt, hnone⟩ := Array.getElem?_eq_some_iff.1 hfree
  rw [Array.setIfInBounds_def, dif_pos hlt, Array.countP_set, hnone]
  rfl

theorem isFilled_of_slots {slot : Nat} (hfree : r.slots[slot]? = some none)
    (hslots : r'.slots = r.slots.setIfInBounds slot (some info)) :
    r'.IsFilled slot ∧ ∀ i, r.IsFilled i → r'.IsFilled i := by
  obtain ⟨hlt, -⟩ := Array.getElem?_eq_some_iff.1 hfree
  refine ⟨⟨info, ?_⟩, fun i hi => ?_⟩
  · rw [hslots, Array.getElem?_setIfInBounds_self_of_lt hlt]
  · obtain ⟨found, hfound⟩ := hi
    have hne : slot ≠ i := by
      rintro rfl
      exact (show r.IsFilled slot from ⟨found, hfound⟩).not_free hfree
    refine ⟨found, ?_⟩
    rw [hslots, Array.getElem?_setIfInBounds_ne hne, hfound]

theorem info?_iff_of_fill (hfree : r.IsFree id.index)
    (hslots : r'.slots = r.slots.setIfInBounds id.index (some info)) {c : ComponentId}
    {found : TypeInfo} :
    r'.info? c = some found ↔ c ≠ id ∧ r.info? c = some found ∨ c = id ∧ found = info := by
  by_cases hc : c = id
  · subst hc
    rw [info?_eq_some, hslots, Array.getElem?_setIfInBounds_self_of_lt hfree.lt_size]
    simp [eq_comm]
  · have hindex : id.index ≠ c.index := fun heq =>
      hc (congrArg ComponentId.mk (UInt32.toNat_inj.1 heq.symm))
    rw [info?_eq_some, hslots, Array.getElem?_setIfInBounds_ne hindex, ← info?_eq_some]
    simp [hc]

theorem HasSlots.fill (h : HasSlots max filled r) (hfree : r.IsFree id.index)
    (hslots : r'.slots = r.slots.setIfInBounds id.index (some info))
    (hhint : r'.nextFree = r.nextFree ∨
      r'.nextFree = id.index + 1 ∧ r.freeSlot? = some id.index) :
    HasSlots max (filled ++ [(id, info)]) r' := by
  obtain ⟨hnew, hold⟩ := isFilled_of_slots hfree hslots
  have hnone : ∀ found, (id, found) ∉ filled := by
    intro found hmem
    have hfound := info?_eq_some.1 ((h.info?_iff id found).2 hmem)
    exact (show r.IsFilled id.index from ⟨found, hfound⟩).not_free hfree
  refine ⟨?_, fun i hi => ?_, fun c found => ?_, ?_, ?_⟩
  · rw [hslots, Array.size_setIfInBounds, h.size]
  · rcases hhint with hsame | ⟨hnext, hslot⟩
    · exact hold i (h.hint i (hsame ▸ hi))
    · -- All slots below the one that was found are filled, and now that one, too.
      rw [hnext] at hi
      rcases Nat.lt_succ_iff_lt_or_eq.1 hi with hlt | rfl
      · exact hold i ((lowest_of_freeSlot? h.hint hslot).below i hlt)
      · exact hnew
  · have hother : (c, found) ∈ filled → c ≠ id := by
      rintro hmem rfl
      exact hnone found hmem
    rw [info?_iff_of_fill hfree hslots, h.info?_iff, and_iff_right_of_imp hother, List.mem_append,
      List.mem_singleton, Prod.mk.injEq]
  · rw [List.map_append, List.nodup_append]
    refine ⟨h.nodup, List.nodup_singleton id, ?_⟩
    rintro c hc c' hc' rfl
    obtain rfl := List.mem_singleton.1 hc'
    obtain ⟨⟨c, found⟩, hmem, rfl⟩ := List.mem_map.1 hc
    exact hnone found hmem
  · rw [ComponentRegistry.len, hslots, countP_setIfInBounds hfree, List.length_append]
    exact congrArg (· + 1) h.len

theorem hasSlots_builtins (hmax : 2 ≤ max.toNat) :
    HasSlots max [(.entity, .entity), (.worldId, .worldId)] (builtins max) := by
  -- Both slots are filled as if by a call, and then the hint is put behind them.
  have hempty : HasSlots max [] ⟨Array.replicate max.toNat none, [], 0⟩ := by
    refine ⟨Array.size_replicate, nofun, fun id info => ?_, List.nodup_nil, ?_⟩
    · rw [info?_eq_some, Array.getElem?_replicate]
      split <;> simp
    · rw [ComponentRegistry.len, Array.countP_replicate]
      rfl
  have hnone : ∀ i < 2, (Array.replicate max.toNat (none : Option TypeInfo))[i]? = some none :=
    fun i hi => Array.getElem?_replicate.trans (if_pos (Nat.lt_of_lt_of_le hi hmax))
  have hfirst : HasSlots max [(.entity, .entity)]
      ⟨(Array.replicate max.toNat none).setIfInBounds 0 (some .entity), [], 0⟩ :=
    hempty.fill (hnone 0 (by decide)) rfl (.inl rfl)
  have hapart : ComponentId.entity.index ≠ ComponentId.worldId.index := by decide
  have hsecond : HasSlots max [(.entity, .entity), (.worldId, .worldId)]
      ⟨(builtins max).slots, [], 0⟩ :=
    hfirst.fill ((Array.getElem?_setIfInBounds_ne hapart).trans (hnone 1 (by decide))) rfl
      (.inl rfl)
  refine { hsecond with hint := fun i hi => ?_ }
  have hfilled : ∀ id info, (id, info) ∈ [(ComponentId.entity, TypeInfo.entity),
      (.worldId, .worldId)] → (builtins max).IsFilled id.index :=
    fun id info hmem => ⟨info, info?_eq_some.1 ((hsecond.info?_iff id info).2 hmem)⟩
  rcases Nat.lt_succ_iff_lt_or_eq.1 (show i < 2 from hi) with hlt | rfl
  · obtain rfl := Nat.lt_one_iff.1 hlt
    exact hfilled .entity .entity (by simp)
  · exact hfilled .worldId .worldId (by simp)

/-- The types that the registry knows are those that have been named, each with a slot of its
own. -/
structure HasTypes (named : List (ValueType × ComponentId)) (r : ComponentRegistry) : Prop where
  lookup_iff : ∀ type id, r.lookup type = some id ↔ ∃ t, (t, id) ∈ named ∧ t.name = type.name
  apart : ∀ t u id, (t, id) ∈ named → (u, id) ∈ named → t = u

theorem HasTypes.name (h : HasTypes named r) (hnew : r.lookup type = none)
    (hfresh : ∀ t, (t, id) ∉ named) (htypes : r'.byType = (type.name, id) :: r.byType) :
    HasTypes (named ++ [(type, id)]) r' := by
  refine ⟨fun u c => ?_, fun t u c ht hu => ?_⟩
  · have hlast : (∃ t, (t, c) ∈ named ++ [(type, id)] ∧ t.name = u.name) ↔
        (∃ t, (t, c) ∈ named ∧ t.name = u.name) ∨ c = id ∧ type.name = u.name := by
      simp only [List.mem_append, List.mem_singleton, Prod.mk.injEq, or_and_right, exists_or,
        and_assoc, exists_eq_left]
    rw [hlast, ← h.lookup_iff, lookup, htypes, List.lookup_cons]
    by_cases hname : u.name = type.name
    · have hunknown : r.lookup u = none := by
        rw [lookup, hname]
        exact hnew
      rw [hname, beq_self_eq_true, hunknown]
      simp [eq_comm]
    · rw [beq_false_of_ne hname]
      simp [Ne.symm hname, lookup]
  · simp only [List.mem_append, List.mem_singleton, Prod.mk.injEq] at ht hu
    rcases ht with ht | ⟨rfl, rfl⟩
    · rcases hu with hu | ⟨rfl, rfl⟩
      · exact h.apart t u c ht hu
      · exact absurd ht (hfresh t)
    · rcases hu with hu | ⟨rfl, -⟩
      · exact absurd hu (hfresh u)
      · rfl

theorem HasTypes.congr {named' : List (ValueType × ComponentId)} (h : HasTypes named r)
    (hmem : ∀ p, p ∈ named' ↔ p ∈ named) : HasTypes named' r := by
  refine ⟨fun type id => ?_, fun t u id ht hu => h.apart t u id ((hmem _).1 ht) ((hmem _).1 hu)⟩
  rw [h.lookup_iff]
  exact exists_congr fun t => and_congr_left fun _ => (hmem _).symm

theorem hasTypes_builtins (max : UInt32) :
    HasTypes [(.entity, .entity), (.worldId, .worldId)] (builtins max) := by
  have hempty : HasTypes [] ⟨#[], [], 0⟩ := ⟨fun type id => by simp [lookup], nofun⟩
  have hfirst : HasTypes [(.worldId, .worldId)]
      ⟨#[], [(ValueType.worldId.name, .worldId)], 0⟩ := hempty.name rfl nofun rfl
  have hsecond : HasTypes [(.worldId, .worldId), (.entity, .entity)] (builtins max) :=
    hfirst.name rfl (fun t ht => by simp [ComponentId.entity, ComponentId.worldId] at ht) rfl
  refine hsecond.congr fun p => ?_
  simp [or_comm]

/-- The registry is what the registrations of a history have made of it. -/
structure Records (max : UInt32) (history : List RegistryExchange) (r : ComponentRegistry) :
    Prop where
  slots : HasSlots max (filledIn history) r
  types : HasTypes (namedIn history) r
  layout : ∀ t id, (t, id) ∈ namedIn history → (id, t.info) ∈ filledIn history

theorem filledIn_concat (history : List RegistryExchange) (x : RegistryExchange) :
    filledIn (history ++ [x]) = filledIn history ++ x.fills?.toList := by
  cases hfills : x.fills? <;> simp [filledIn, hfills]

theorem namedIn_concat (history : List RegistryExchange) (x : RegistryExchange) :
    namedIn (history ++ [x]) = namedIn history ++ x.names?.toList := by
  cases hnames : x.names? <;> simp [namedIn, hnames]

namespace Records

theorem builtins (hmax : 2 ≤ max.toNat) : Records max [] (builtins max) := by
  refine ⟨hasSlots_builtins hmax, hasTypes_builtins max, fun t id ht => ?_⟩
  simp only [namedIn, filledIn, List.filterMap_nil, List.append_nil, List.mem_cons,
    List.not_mem_nil, or_false, Prod.mk.injEq] at ht ⊢
  rcases ht with ⟨rfl, rfl⟩ | ⟨rfl, rfl⟩
  · exact .inl ⟨rfl, rfl⟩
  · exact .inr ⟨rfl, rfl⟩

theorem refuse (h : Records max history r) (call : RegistryCall) (e : StorageError) :
    Records max (history ++ [⟨call, .refused e⟩]) r := by
  have hfilled : filledIn (history ++ [⟨call, .refused e⟩]) = filledIn history := by
    rw [filledIn_concat]
    cases call <;> exact List.append_nil _
  have hnamed : namedIn (history ++ [⟨call, .refused e⟩]) = namedIn history := by
    rw [namedIn_concat]
    cases call <;> exact List.append_nil _
  exact ⟨hfilled ▸ h.slots, hnamed ▸ h.types, hfilled ▸ hnamed ▸ h.layout⟩

theorem fill (h : Records max history r) {x : RegistryExchange} (hfills : r.Fills x id info r') :
    Records max (history ++ [x]) r' := by
  have hslots := h.slots.fill hfills.free hfills.slots hfills.hint
  have hfilled : filledIn (history ++ [x]) = filledIn history ++ [(id, info)] := by
    rw [filledIn_concat, hfills.fills, Option.toList_some]
  -- The slot was free, so no type has it yet.
  have hfresh : ∀ t, (t, id) ∉ namedIn history := by
    intro t ht
    have hfound := info?_eq_some.1 ((h.slots.info?_iff id t.info).2 (h.layout t id ht))
    exact (show r.IsFilled id.index from ⟨_, hfound⟩).not_free hfills.free
  rcases hfills.types with ⟨hnone, hsame⟩ | ⟨type, hsome, rfl, hnew, htypes⟩
  · have hnamed : namedIn (history ++ [x]) = namedIn history := by
      rw [namedIn_concat, hnone, Option.toList_none, List.append_nil]
    refine ⟨hfilled ▸ hslots, ⟨fun type c => ?_, hnamed ▸ h.types.apart⟩, fun t c ht => ?_⟩
    · rw [lookup, hsame, hnamed]
      exact h.types.lookup_iff type c
    · rw [hnamed] at ht
      rw [hfilled]
      exact List.mem_append_left _ (h.layout t c ht)
  · have hnamed : namedIn (history ++ [x]) = namedIn history ++ [(type, id)] := by
      rw [namedIn_concat, hsome, Option.toList_some]
    refine ⟨hfilled ▸ hslots, hnamed ▸ h.types.name hnew hfresh htypes, fun t c ht => ?_⟩
    rw [hnamed] at ht
    rw [hfilled]
    rcases List.mem_append.1 ht with ht | ht
    · exact List.mem_append_left _ (h.layout t c ht)
    · obtain ⟨rfl, rfl⟩ := Prod.mk.inj (List.mem_singleton.1 ht)
      exact List.mem_append_right _ (List.mem_singleton_self _)

theorem perform (h : Records max history r) (call : RegistryCall) :
    Records max (history ++ [⟨call, (r.perform call).1⟩]) (r.perform call).2 := by
  rcases perform_cases h.slots.size_lt call with ⟨e, hrefused⟩ | ⟨id, info, hfills⟩
  · rw [hrefused]
    exact h.refuse call e
  · exact h.fill hfills

theorem after (h : Records max history r) (calls : List RegistryCall) :
    Records max (history ++ r.exchanges calls) (r.after calls) := by
  induction calls generalizing r history with
  | nil =>
      rw [exchanges, List.append_nil]
      exact h
  | cons call calls ih =>
      have hrest := ih (h.perform call)
      rw [List.append_assoc] at hrest
      exact hrest

end Records

/-! ## Single steps -/

theorem registerSteps_eq (r : ComponentRegistry) (info : TypeInfo) :
    registerSteps info r =
      match r.register info with
      | .ok (id, r') => .ok id r'
      | .error e => .error e r := by
  rw [register]
  cases hvalid : info.isValid with
  | false => simp [registerSteps, hvalid, throw_apply, bind, EStateM.bind]
  | true =>
      cases hslot : r.freeSlot? with
      | none =>
          simp [registerSteps, hvalid, hslot, get_apply, throw_apply, bind, EStateM.bind, pure]
      | some slot =>
          simp [registerSteps, hvalid, hslot, get_apply, modify_apply, bind, EStateM.bind, pure,
            EStateM.pure]

theorem registerWithIdSteps_eq (r : ComponentRegistry) (id : ComponentId) (info : TypeInfo) :
    registerWithIdSteps id info r =
      match r.registerWithId id info with
      | .ok r' => .ok ⟨⟩ r'
      | .error e => .error e r := by
  rw [registerWithId]
  cases hvalid : info.isValid with
  | false => simp [registerWithIdSteps, hvalid, throw_apply, bind, EStateM.bind]
  | true =>
      rcases hslot : r.slots[id.index]? with - | - | found <;>
        simp [registerWithIdSteps, hvalid, hslot, get_apply, throw_apply, modify_apply, bind,
          EStateM.bind]

theorem registerTypeSteps_eq (r : ComponentRegistry) (type : ValueType) :
    registerTypeSteps type r =
      match r.registerType type with
      | .ok (id, r') => .ok id r'
      | .error e => .error e r := by
  rw [registerType]
  cases hlookup : r.lookup type with
  | some existing =>
      simp [registerTypeSteps, hlookup, get_apply, throw_apply, bind, EStateM.bind]
  | none =>
      have hsteps := r.registerSteps_eq type.info
      cases hregister : r.register type.info with
      | error e =>
          rw [hregister] at hsteps
          simp [registerTypeSteps, hlookup, hsteps, get_apply, bind, EStateM.bind, Except.bind]
      | ok result =>
          rw [hregister] at hsteps
          simp [registerTypeSteps, hlookup, hsteps, get_apply, modify_apply, bind, EStateM.bind,
            Except.bind, pure, EStateM.pure, Except.pure]

/-- The steps together do what the call does.  Those of a call that is refused have changed
nothing. -/
theorem steps_eq (r : ComponentRegistry) (call : RegistryCall) :
    call.steps r =
      match r.perform call with
      | (.refused e, _) => .error e r
      | (answer, r') => .ok answer r' := by
  cases call with
  | register info =>
      have hsteps := r.registerSteps_eq info
      rw [perform]
      rcases hresult : r.register info with e | ⟨id, r'⟩ <;> rw [hresult] at hsteps <;>
        simp [RegistryCall.steps, hsteps, handed, bind, EStateM.bind, pure, EStateM.pure]
  | registerWithId id info =>
      have hsteps := r.registerWithIdSteps_eq id info
      rw [perform]
      cases hresult : r.registerWithId id info <;> rw [hresult] at hsteps <;>
        simp [RegistryCall.steps, hsteps, stored, bind, EStateM.bind, pure, EStateM.pure]
  | registerType type =>
      have hsteps := r.registerTypeSteps_eq type
      rw [perform]
      rcases hresult : r.registerType type with e | ⟨id, r'⟩ <;> rw [hresult] at hsteps <;>
        simp [RegistryCall.steps, hsteps, handed, bind, EStateM.bind, pure, EStateM.pure]

/-! ## Answers -/

theorem isValid_iff : info.isValid = true ↔ ∃ k, info.alignment.toNat = 2 ^ k :=
  Word.isPowerOfTwo_iff

theorem HasSlots.capacity (h : HasSlots max filled r) : r.capacity = max := by
  rw [ComponentRegistry.capacity, h.size, UInt32.ofNat_toNat]

theorem HasSlots.takesLowestFree (h : HasSlots max filled r) (hvalid : info.isValid = true) :
    r.TakesLowestFree (r.perform (.register info)).1 := by
  rw [perform]
  generalize hresult : r.register info = result
  cases hresult ▸ r.registered info with
  | invalid hinvalid => exact absurd (hinvalid.symm.trans hvalid) Bool.false_ne_true
  | full _ hfull =>
      have hnone := (freeSlot?_eq_none_iff h.hint).1 hfull
      refine ⟨fun id => ⟨fun hanswer => ?_, fun hlowest => absurd hlowest.free (hnone _)⟩,
        fun _ => hnone, fun _ => rfl⟩
      contradiction
  | @fills slot _ hslot =>
      have hlowest := lowest_of_freeSlot? h.hint hslot
      have hid : (⟨UInt32.ofNat slot⟩ : ComponentId).index = slot :=
        index_ofNat (Nat.lt_trans hlowest.free.lt_size h.size_lt)
      refine ⟨fun id => ⟨fun hanswer => ?_, fun hother => ?_⟩, fun hanswer => ?_,
        fun hnone => absurd hlowest.free (hnone _)⟩
      · obtain rfl := RegistryAnswer.component.inj hanswer
        rw [hid]
        exact hlowest
      · have hindex := hid.trans (hlowest.unique hother)
        exact congrArg _ (congrArg ComponentId.mk (UInt32.toNat_inj.1 hindex))
      · contradiction

/-- A type that is not known gets a slot just as its layout does. -/
theorem answer_registerType (hnew : r.lookup type = none) :
    (r.perform (.registerType type)).1 = (r.perform (.register type.info)).1 := by
  rw [perform, perform, registerType, hnew]
  rcases r.register type.info with e | ⟨id, r'⟩ <;> rfl

theorem registerWithId_done_iff :
    (r.perform (.registerWithId id info)).1 = .done ↔
      r.IsFree id.index ∧ info.isValid = true := by
  rw [perform, registerWithId, IsFree]
  cases info.isValid with
  | false => simp [stored]
  | true => rcases r.slots[id.index]? with - | - | found <;> simp [stored]

theorem filledIn_append (history later : List RegistryExchange) :
    filledIn (history ++ later) = filledIn history ++ later.filterMap RegistryExchange.fills? := by
  simp [filledIn]

/-- In a registry with room for the built-in components, after any registrations: no slot below
the hint is free, and what is registered next gets the lowest free slot, if any is left, or the
free slot that it names.  Each slot that is filled, and only these count, has been filled once,
with the layout that it keeps.  A type is found where its registration has put it, with its own
layout, and no two types share a slot.  A call that is refused leaves the registry as it was,
and its single steps do so, too. -/
theorem slots_filled_once {max : UInt32} (hmax : 2 ≤ max) :
    ∃ r₀, ComponentRegistry.new max = .ok r₀ ∧ ∀ calls : List RegistryCall,
      let r := r₀.after calls
      let filled := filledIn (r₀.exchanges calls)
      let named := namedIn (r₀.exchanges calls)
      r.capacity = max ∧
      (∀ i < r.nextFree, r.IsFilled i) ∧
      (∀ info : TypeInfo, (∃ k, info.alignment.toNat = 2 ^ k) →
        r.TakesLowestFree (r.perform (.register info)).1) ∧
      (∀ type : ValueType, (∀ p ∈ named, p.1.name ≠ type.name) →
        (∃ k, type.info.alignment.toNat = 2 ^ k) →
        r.TakesLowestFree (r.perform (.registerType type)).1) ∧
      (∀ id info, (r.perform (.registerWithId id info)).1 = .done ↔
        id.index < max.toNat ∧ r.IsFree id.index ∧ ∃ k, info.alignment.toNat = 2 ^ k) ∧
      (∀ id info, r.info? id = some info ↔ (id, info) ∈ filled) ∧
      (filled.map Prod.fst).Nodup ∧
      r.len = filled.length ∧
      (∀ more id info, r.info? id = some info → (r.after more).info? id = some info) ∧
      (∀ type id, r.lookup type = some id ↔ ∃ t, (t, id) ∈ named ∧ t.name = type.name) ∧
      (∀ type id, (type, id) ∈ named → r.info? id = some type.info) ∧
      (∀ type type' id, r.lookup type = some id → r.lookup type' = some id →
        type.name = type'.name) ∧
      ∀ call, (∃ e, r.perform call = (.refused e, r) ∧ call.steps r = .error e r) ∨
        ∃ answer r', (∀ e, answer ≠ .refused e) ∧ r.perform call = (answer, r') ∧
          call.steps r = .ok answer r' := by
  refine ⟨builtins max, if_neg (UInt32.not_lt.2 hmax), fun calls => ?_⟩
  intro r filled named
  have h : Records max (exchanges (builtins max) calls) r :=
    (Records.builtins (UInt32.le_iff_toNat_le.1 hmax)).after calls
  refine ⟨h.slots.capacity, h.slots.hint,
    fun info hinfo => h.slots.takesLowestFree (isValid_iff.2 hinfo), fun type hnew hinfo => ?_,
    fun id info => ?_, h.slots.info?_iff, h.slots.nodup, h.slots.len, fun more id info hinfo => ?_,
    h.types.lookup_iff, fun type id ht => (h.slots.info?_iff ..).2 (h.layout type id ht),
    fun type type' id ht ht' => ?_, fun call => ?_⟩
  · have hunknown : r.lookup type = none := by
      refine Option.eq_none_iff_forall_ne_some.2 fun id hid => ?_
      obtain ⟨t, ht, hname⟩ := (h.types.lookup_iff type id).1 hid
      exact hnew (t, id) ht hname
    rw [answer_registerType hunknown]
    exact h.slots.takesLowestFree (isValid_iff.2 hinfo)
  · rw [registerWithId_done_iff, isValid_iff]
    exact ⟨fun hboth => ⟨h.slots.size ▸ hboth.1.lt_size, hboth⟩, fun hall => hall.2⟩
  · have hafter := (h.after more).slots
    rw [filledIn_append] at hafter
    exact (hafter.info?_iff id info).2
      (List.mem_append_left _ ((h.slots.info?_iff id info).1 hinfo))
  · obtain ⟨t, ht, hname⟩ := (h.types.lookup_iff type id).1 ht
    obtain ⟨t', ht', hname'⟩ := (h.types.lookup_iff type' id).1 ht'
    rw [← hname, ← hname', h.types.apart t t' id ht ht']
  · have hsteps := r.steps_eq call
    rcases perform_cases h.slots.size_lt call with ⟨e, hrefused⟩ | ⟨id, info, hfills⟩
    · rw [hrefused] at hsteps
      exact .inl ⟨e, hrefused, hsteps⟩
    · have hanswer : ∀ e, (r.perform call).1 ≠ .refused e := by
        intro e he
        have hsome := hfills.fills
        rw [he] at hsome
        cases call <;> contradiction
      generalize hperform : r.perform call = outcome at hsteps hanswer
      obtain ⟨answer, r'⟩ := outcome
      refine .inr ⟨answer, r', hanswer, rfl, ?_⟩
      cases answer with
      | refused e => exact absurd rfl (hanswer e)
      | component | done => exact hsteps

namespace Gapped

/-- The last slot is taken first, so the two registrations that follow fill the gap. -/
def calls : List RegistryCall :=
  [.registerWithId ⟨4⟩ ⟨8, 8⟩, .register ⟨4, 4⟩, .registerType ⟨"u8", ⟨1, 1⟩⟩, .register ⟨2, 2⟩]

end Gapped

theorem slots_filled_once_sample :
    ∃ r₀, ComponentRegistry.new 5 = .ok r₀ ∧
      let r := r₀.after Gapped.calls
      r.len = 5 ∧ r.lookup ⟨"u8", ⟨1, 1⟩⟩ = some ⟨3⟩ ∧
        (r.perform (.register ⟨1, 1⟩)).1 = .refused (.componentCapacity r.capacity) ∧
        ∀ more, (r.after more).info? ⟨4⟩ = some ⟨8, 8⟩ := by
  obtain ⟨r₀, hnew, h⟩ := slots_filled_once (show 2 ≤ (5 : UInt32) by decide)
  obtain rfl : builtins 5 = r₀ := Except.ok.inj hnew
  obtain ⟨-, -, hregister, -, -, hinfo, -, hlen, hkept, hlookup, -⟩ := h Gapped.calls
  refine ⟨builtins 5, rfl, hlen.trans (by decide +kernel), ?_, ?_, fun more => ?_⟩
  · exact (hlookup _ _).2 ⟨⟨"u8", ⟨1, 1⟩⟩, by decide +kernel, rfl⟩
  · refine (hregister ⟨1, 1⟩ ⟨0, rfl⟩).refused_iff.2 fun i hfree => ?_
    have hfull : ∀ slot ∈ ((builtins 5).after Gapped.calls).slots, slot ≠ none := by decide +kernel
    exact hfull none (Array.mem_of_getElem? hfree) rfl
  · exact hkept more _ _ ((hinfo _ _).2 (by decide +kernel))

end ComponentRegistry
end Lockstep
