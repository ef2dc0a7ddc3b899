import Lockstep.Proofs.Entity.Queue
import Mathlib.Algebra.Order.Ring.Nat

/-!
# The reuse of slots

What a slot is like, and who holds it, can be told from the history of the store.  The slots
are given out in index order at first and in the order of their release from then on.  A
handle that was released counts again when the generations of its slot have come round.
-/

namespace Lockstep
namespace EntityStore

variable {s s' : EntityStore} {e : Entity} {i capacity : UInt32}
  {history : List EntityExchange} {x : EntityExchange}

theorem filterMap_concat {α β : Type} (f : α → Option β) (l : List α) (a : α) :
    (l ++ [a]).filterMap f = l.filterMap f ++ (f a).toList := by
  rw [List.filterMap_append]
  cases h : f a <;> simp [h]

theorem issuedIn_concat (history : List EntityExchange) (x : EntityExchange) :
    issuedIn (history ++ [x]) = issuedIn history ++ (x.issued?.map (·.index)).toList :=
  filterMap_concat ..

theorem releasedIn_concat (history : List EntityExchange) (x : EntityExchange) :
    releasedIn (history ++ [x]) = releasedIn history ++ (x.released?.map (·.index)).toList :=
  filterMap_concat ..

theorem releasesOf_append (i : UInt32) (history later : List EntityExchange) :
    releasesOf i (history ++ later) = releasesOf i history + releasesOf i later := by
  rw [releasesOf, releasedIn, List.filterMap_append, List.count_append]
  rfl

theorem releasesOf_cons (hx : x.released? = some e) (later : List EntityExchange) :
    releasesOf e.index (x :: later) = releasesOf e.index later + 1 := by
  simp [releasesOf, releasedIn, hx]

theorem holderOf_concat (i : UInt32) (history : List EntityExchange) (x : EntityExchange) :
    holderOf i (history ++ [x]) = x.holder i (holderOf i history) := List.foldl_concat ..

theorem locationOf_concat (i : UInt32) (history : List EntityExchange) (x : EntityExchange) :
    locationOf i (history ++ [x]) = x.location i (locationOf i history) := List.foldl_concat ..

theorem eq_of_released (hx : x.released? = some e) : x = ⟨.release e, .done true⟩ := by
  unfold EntityExchange.released? at hx
  split at hx
  · rw [Option.some.inj hx]
  · contradiction

/-- After a release of the slot it counts only what comes later. -/
theorem holderOf_released (hx : x.released? = some e) (before later : List EntityExchange) :
    holderOf e.index (before ++ x :: later) = holderOf e.index later := by
  obtain rfl := eq_of_released hx
  have hnone : ∀ holder, EntityExchange.holder e.index holder ⟨.release e, .done true⟩ = none :=
    fun _ => if_pos rfl
  rw [holderOf, List.foldl_append, List.foldl_cons, hnone, holderOf]

theorem slot?_of_issued (hx : x.issued? = some e) : x.slot? = some e.index := by
  simp [EntityExchange.slot?, hx]

theorem slot?_of_released (hx : x.released? = some e) : x.slot? = some e.index := by
  obtain rfl := eq_of_released hx
  rfl

theorem holder_other (hx : x.slot? ≠ some i) (before : Option Entity) :
    x.holder i before = before := by
  unfold EntityExchange.holder
  split
  · rename_i e hissued
    exact if_neg fun hi : e.index = i => hx (hi ▸ slot?_of_issued hissued)
  · rename_i e _ hreleased
    exact if_neg fun hi : e.index = i => hx (hi ▸ slot?_of_released hreleased)
  · rfl

theorem location_other (hx : x.slot? ≠ some i) (before : Option EntityLocation) :
    x.location i before = before := by
  unfold EntityExchange.slot? at hx
  unfold EntityExchange.location
  split
  · rename_i e _ hturn
    exact if_neg fun hi => hx (by simp [hturn, hi])
  · rename_i e location hturn hlocated
    exact if_neg fun hi => hx (by simp [hturn, hlocated, hi])
  · rfl

theorem releasesOf_other (hx : x.slot? ≠ some i) : releasesOf i [x] = 0 := by
  refine List.count_eq_zero_of_not_mem fun hmem => ?_
  obtain ⟨y, hy, hi⟩ := List.mem_filterMap.1 hmem
  obtain rfl := List.mem_singleton.1 hy
  obtain ⟨e, he, rfl⟩ := Option.map_eq_some_iff.1 hi
  exact hx (slot?_of_released he)

/-! ## The account of a slot -/

/-- A slot is as the history tells. -/
structure SlotAccount (i : UInt32) (history : List EntityExchange) (slot : EntitySlot) : Prop where
  generation : slot.generation = UInt32.ofNat (releasesOf i history)
  holder : holderOf i history = if slot.occupancy.isLive then some ⟨i, slot.generation⟩ else none
  location : slot.occupancy.location? = locationOf i history

namespace SlotAccount

theorem nil (i : UInt32) : SlotAccount i [] ⟨0, .free⟩ := ⟨rfl, rfl, rfl⟩

theorem issue (h : SlotAccount e.index history ⟨e.generation, .free⟩) :
    SlotAccount e.index (history ++ [⟨.allocate, .allocated (some e)⟩])
      ⟨e.generation, .live none⟩ := by
  refine ⟨?_, ?_, ?_⟩
  · rw [releasesOf_append]
    exact h.generation
  · rw [holderOf_concat]
    exact if_pos rfl
  · rw [locationOf_concat]
    exact (if_pos rfl).symm

theorem release {location : Option EntityLocation}
    (h : SlotAccount e.index history ⟨e.generation, .live location⟩) :
    SlotAccount e.index (history ++ [⟨.release e, .done true⟩]) ⟨e.generation + 1, .free⟩ := by
  refine ⟨?_, ?_, ?_⟩
  · rw [releasesOf_append, releasesOf_cons rfl, UInt32.ofNat_add, ← h.generation]
    rfl
  · rw [holderOf_concat]
    exact if_pos rfl
  · rw [locationOf_concat]
    exact (if_pos rfl).symm

theorem locate {old : Option EntityLocation} (location : EntityLocation)
    (h : SlotAccount e.index history ⟨e.generation, .live old⟩) :
    SlotAccount e.index (history ++ [⟨.setLocation e location, .done true⟩])
      ⟨e.generation, .live (some location)⟩ := by
  refine ⟨?_, ?_, ?_⟩
  · rw [releasesOf_append]
    exact h.generation
  · rw [holderOf_concat]
    exact h.holder
  · rw [locationOf_concat]
    exact (if_pos rfl).symm

theorem other {slot : EntitySlot} (h : SlotAccount i history slot) (hx : x.slot? ≠ some i) :
    SlotAccount i (history ++ [x]) slot := by
  refine ⟨?_, ?_, ?_⟩
  · rw [releasesOf_append, releasesOf_other hx]
    exact h.generation
  · rw [holderOf_concat, holder_other hx]
    exact h.holder
  · rw [locationOf_concat, location_other hx]
    exact h.location

/-- An exchange that changes one slot. -/
theorem update {slots : UInt32 → EntitySlot} {slot : EntitySlot}
    (h : ∀ i, SlotAccount i history (slots i)) (hx : x.slot? = some e.index)
    (hself : SlotAccount e.index (history ++ [x]) slot) (i : UInt32) :
    SlotAccount i (history ++ [x]) (Function.update slots e.index slot i) := by
  by_cases hi : i = e.index
  · subst hi
    rwa [Function.update_self]
  · rw [Function.update_of_ne hi]
    refine (h i).other fun hsome => hi ?_
    exact Option.some.inj (hsome.symm.trans hx)

end SlotAccount

/-! ## The account of a store -/

/-- A store is as the history tells. -/
structure Account (capacity : UInt32) (history : List EntityExchange) (s : EntityStore) :
    Prop where
  sound : s.Sound
  size : s.capacity = capacity.toNat
  nodup : s.free.Nodup
  mem_free : ∀ n, n ∈ s.free ↔
    n < capacity.toNat ∧ (s.slotAt (UInt32.ofNat n)).occupancy.isLive = false
  queue : (issuedIn history).map UInt32.toNat ++ s.free =
    List.range capacity.toNat ++ (releasedIn history).map UInt32.toNat
  slot : ∀ i, SlotAccount i history (s.slotAt i)

theorem ofNat_ne {n : Nat} (hn : n < capacity.toNat) (hne : n ≠ i.toNat) :
    UInt32.ofNat n ≠ i := by
  rintro rfl
  exact hne (UInt32.toNat_ofNat_of_lt' (Nat.lt_trans hn capacity.toNat_lt)).symm

namespace Account

theorem empty (capacity : UInt32) : Account capacity [] (empty capacity) := by
  refine ⟨sound_empty capacity, rfl, ?_, fun n => ?_, ?_, fun i => ?_⟩
  · rw [free_empty]
    exact List.nodup_range
  · rw [free_empty, slotAt_empty, List.mem_range]
    exact (and_iff_left rfl).symm
  · rw [free_empty]
    exact (List.append_nil _).symm
  · rw [slotAt_empty]
    exact .nil i

theorem issue (h : Account capacity history s) (took : s.Took e s')
    (hfree : s.free = e.index.toNat :: s'.free) (hsize : s'.capacity = s.capacity) :
    Account capacity (history ++ [⟨.allocate, .allocated (some e)⟩]) s' := by
  have hnodup := h.nodup
  rw [hfree, List.nodup_cons] at hnodup
  refine ⟨took.sound, hsize.trans h.size, hnodup.2, fun n => ?_, ?_, ?_⟩
  · rw [took.slotAt]
    by_cases hn : n = e.index.toNat
    · subst hn
      simp [hnodup.1, Occupancy.isLive]
    · have hmem := h.mem_free n
      rw [hfree, List.mem_cons, or_iff_right hn] at hmem
      rw [hmem]
      refine and_congr_right fun hlt => ?_
      rw [Function.update_of_ne (ofNat_ne hlt hn)]
  · rw [issuedIn_concat, releasedIn_concat, List.map_append, List.append_assoc]
    have hqueue := h.queue
    rw [hfree, ← List.append_nil (releasedIn history)] at hqueue
    exact hqueue
  · rw [took.slotAt]
    exact SlotAccount.update h.slot rfl (took.free ▸ h.slot e.index).issue

theorem release (h : Account capacity history s) (hlive : s.isLive e = true) (freed : s.Freed e s')
    (hfree : s'.free = s.free ++ [e.index.toNat]) (hsize : s'.capacity = s.capacity) :
    Account capacity (history ++ [⟨.release e, .done true⟩]) s' := by
  obtain ⟨location, hslot⟩ := isLive_iff.1 hlive
  have hlt : e.index.toNat < capacity.toNat := by
    have hused := lt_size_of_live (s := s) (i := e.index) (by simp [hslot])
    exact h.size ▸ Nat.lt_of_lt_of_le hused h.sound.size_le
  have hnot_mem : e.index.toNat ∉ s.free := by
    rw [h.mem_free, UInt32.ofNat_toNat, hslot]
    simp [Occupancy.isLive]
  refine ⟨freed.sound, hsize.trans h.size, ?_, fun n => ?_, ?_, ?_⟩
  · rw [hfree]
    exact List.nodup_append_comm.1 (List.nodup_cons.2 ⟨hnot_mem, h.nodup⟩)
  · rw [hfree, freed.slotAt, List.mem_append, List.mem_singleton, h.mem_free]
    by_cases hn : n = e.index.toNat
    · subst hn
      simp [hlt, Occupancy.isLive]
    · rw [or_iff_left hn]
      refine and_congr_right fun hlt => ?_
      rw [Function.update_of_ne (ofNat_ne hlt hn)]
  · have hissued : issuedIn (history ++ [⟨.release e, .done true⟩]) = issuedIn history := by
      rw [issuedIn_concat]
      exact List.append_nil _
    rw [hissued, releasedIn_concat, List.map_append, hfree, ← List.append_assoc, h.queue,
      List.append_assoc]
    rfl
  · rw [freed.slotAt]
    exact SlotAccount.update h.slot rfl (hslot ▸ h.slot e.index).release

theorem locate {location : EntityLocation} (h : Account capacity history s)
    (hlive : s.isLive e = true) (placed : s.Placed e location s') (hfree : s'.free = s.free)
    (hsize : s'.capacity = s.capacity) :
    Account capacity (history ++ [⟨.setLocation e location, .done true⟩]) s' := by
  obtain ⟨old, hslot⟩ := isLive_iff.1 hlive
  refine ⟨placed.sound, hsize.trans h.size, hfree ▸ h.nodup, fun n => ?_, ?_, ?_⟩
  · rw [hfree, placed.slotAt, h.mem_free]
    refine and_congr_right fun _ => ?_
    by_cases hn : UInt32.ofNat n = e.index
    · rw [hn, Function.update_self, hslot]
      rfl
    · rw [Function.update_of_ne hn]
  · rw [issuedIn_concat, releasedIn_concat, hfree]
    simpa [EntityExchange.issued?, EntityExchange.released?] using h.queue
  · rw [placed.slotAt]
    exact SlotAccount.update h.slot rfl ((hslot ▸ h.slot e.index).locate location)

theorem refuse (h : Account capacity history s) (hx : x.slot? = none) :
    Account capacity (history ++ [x]) s := by
  have hissued : x.issued? = none := Option.eq_none_iff_forall_ne_some.2 fun e he => by
    simp [slot?_of_issued he] at hx
  have hreleased : x.released? = none := Option.eq_none_iff_forall_ne_some.2 fun e he => by
    simp [slot?_of_released he] at hx
  refine ⟨h.sound, h.size, h.nodup, h.mem_free, ?_, fun i => (h.slot i).other (by simp [hx])⟩
  rw [issuedIn_concat, releasedIn_concat, hissued, hreleased]
  simpa using h.queue

theorem step (h : Account capacity history s) (hstep : s.Step x s') :
    Account capacity (history ++ [x]) s' := by
  cases hstep with
  | issues hx took hfree hsize => exact hx ▸ h.issue took hfree hsize
  | releases hx hlive freed hfree hsize => exact hx ▸ h.release hlive freed hfree hsize
  | locates hx hlive placed hfree hsize => exact hx ▸ h.locate hlive placed hfree hsize
  | refuses hx => exact h.refuse hx

theorem after (h : Account capacity history s) (calls : List EntityCall) :
    Account capacity (history ++ s.exchanges calls) (s.after calls) := by
  induction calls generalizing s history with
  | nil =>
      rw [exchanges, List.append_nil]
      exact h
  | cons call calls ih =>
      rw [exchanges, List.append_cons]
      exact ih (h.step (EntityStore.step h.sound call))

theorem isLive_iff_holder (h : Account capacity history s) (e : Entity) :
    s.isLive e = true ↔ holderOf e.index history = some e := by
  obtain ⟨i, generation⟩ := e
  rw [(h.slot i).holder, isLive_iff]
  rcases s.slotAt i with ⟨_, _ | location⟩ <;> simp [Occupancy.isLive]

theorem liveCount_eq (h : Account capacity history s) : s.liveCount =
    (List.range capacity.toNat).countP
      fun n => (s.slotAt (UInt32.ofNat n)).occupancy.isLive := by
  have hperm : s.free.Perm ((List.range capacity.toNat).filter
      fun n => !(s.slotAt (UInt32.ofNat n)).occupancy.isLive) := by
    rw [List.perm_ext_iff_of_nodup h.nodup (List.nodup_range.filter _)]
    intro n
    rw [h.mem_free, List.mem_filter, List.mem_range, Bool.not_eq_true']
  have hfree := hperm.length_eq
  rw [← List.countP_eq_length_filter] at hfree
  have hall := List.length_eq_countP_add_countP
    (fun n => (s.slotAt (UInt32.ofNat n)).occupancy.isLive) (l := List.range capacity.toNat)
  have hcount := liveCount_add_length_free h.sound
  rw [List.length_range] at hall
  simp only [Bool.not_eq_true, Bool.decide_eq_false] at hall
  rw [h.size] at hcount
  omega

theorem allocate_eq_none_iff (h : Account capacity history s) : s.allocate = none ↔
    ∀ n < capacity.toNat, (s.slotAt (UInt32.ofNat n)).occupancy.isLive = true := by
  rw [allocate_eq_none, List.eq_nil_iff_forall_not_mem]
  refine forall_congr' fun n => ?_
  rw [h.mem_free, not_and, Bool.not_eq_false]

/-- A handle that has been released is live again when the generations have come round. -/
theorem isLive_iff_dvd {before later : List EntityExchange} (h : Account capacity history s)
    (hsplit : history = before ++ x :: later) (hx : x.released? = some e)
    (hgeneration : e.generation = UInt32.ofNat (releasesOf e.index before)) :
    s.isLive e = true ↔
      2 ^ 32 ∣ releasesOf e.index later + 1 ∧ holderOf e.index later ≠ none := by
  have hturns : UInt32.ofNat (releasesOf e.index history) = e.generation ↔
      2 ^ 32 ∣ releasesOf e.index later + 1 := by
    rw [hgeneration, hsplit, releasesOf_append, releasesOf_cons hx, ← UInt32.toNat_inj,
      UInt32.toNat_ofNat', UInt32.toNat_ofNat']
    omega
  -- Who holds the slot is decided by what comes after the release, its generation by all of it.
  have hholder := (h.slot e.index).holder
  rw [(h.slot e.index).generation] at hholder
  rw [h.isLive_iff_holder, hholder]
  rw [hsplit, holderOf_released hx] at hholder
  rw [hholder, ← hturns]
  cases (s.slotAt e.index).occupancy.isLive with
  | false => simp
  | true =>
      obtain ⟨i, generation⟩ := e
      simp

end Account

/-- The exchanges of a history were made one after the other. -/
theorem exists_calls {calls : List EntityCall} {before later : List EntityExchange}
    (h : s.exchanges calls = before ++ x :: later) :
    ∃ earlier, s.exchanges earlier = before ∧ ((s.after earlier).perform x.call).1 = x.answer := by
  induction before generalizing s calls with
  | nil =>
      cases calls with
      | nil => simp [exchanges] at h
      | cons call calls =>
          obtain ⟨rfl, -⟩ := List.cons.inj h
          exact ⟨[], rfl, rfl⟩
  | cons y before ih =>
      cases calls with
      | nil => simp [exchanges] at h
      | cons call calls =>
          obtain ⟨rfl, hrest⟩ := List.cons.inj h
          obtain ⟨earlier, rfl, hanswer⟩ := ih hrest
          exact ⟨call :: earlier, rfl, hanswer⟩

/-- A handle that a store turns down in every call. -/
structure Refuses (s : EntityStore) (e : Entity) : Prop where
  isLive : s.isLive e = false
  location : s.location? e = none
  release : s.release? e = none
  setLocation : ∀ location, s.setLocation? e location = none

theorem refuses_of_not_live (h : s.isLive e = false) : s.Refuses e := by
  refine ⟨h, ?_, ?_, fun location => ?_⟩
  · rw [location?, h]
    rfl
  · rw [release?, h]
    rfl
  · rw [setLocation?, h]
    rfl

theorem Account.generation_of_released {before later : List EntityExchange}
    {calls : List EntityCall}
    (hsplit : (EntityStore.empty capacity).exchanges calls = before ++ x :: later)
    (hx : x.released? = some e) : e.generation = UInt32.ofNat (releasesOf e.index before) := by
  obtain ⟨earlier, hbefore, hanswer⟩ := exists_calls hsplit
  have h := (Account.empty capacity).after earlier
  rw [List.nil_append, hbefore] at h
  have hlive : ((EntityStore.empty capacity).after earlier).isLive e = true := by
    by_contra hnot
    obtain rfl := eq_of_released hx
    have hrefused := (refuses_of_not_live (eq_false_of_ne_true hnot)).release
    simp [perform, hrefused] at hanswer
  obtain ⟨location, hslot⟩ := isLive_iff.1 hlive
  rw [← (h.slot e.index).generation, hslot]

/-- After any calls the free slots are queued without repetition and the others are counted,
and an allocation fails only when there is no free slot.  The generation of a slot is the
number of its releases, and the handle allocated last is its live one until it is released.
Slots are given out in index order, then in the order of their release.  A handle that was
released is refused until its slot has been released `2 ^ 32 - 1` more times and allocated
once more. -/
theorem slots_recycled (capacity : UInt32) (calls : List EntityCall) :
    let s := (empty capacity).after calls
    let history := (empty capacity).exchanges calls
    let live (n : Nat) : Bool := (s.slotAt (UInt32.ofNat n)).occupancy.isLive
    (s.free.Nodup ∧ ∀ n, n ∈ s.free ↔ n < capacity.toNat ∧ live n = false) ∧
    s.liveCount = (List.range capacity.toNat).countP live ∧
    (∀ i, (s.slotAt i).occupancy.location? =
      if (s.slotAt i).occupancy.isLive then locationOf i history else none) ∧
    (∀ e s', s.allocate = some (e, s') → s'.isLive e = true ∧ s'.location? e = none) ∧
    (s.allocate = none ↔ ∀ n < capacity.toNat, live n = true) ∧
    (∀ i, (s.slotAt i).generation = UInt32.ofNat (releasesOf i history)) ∧
    (∀ e, s.isLive e = true ↔ holderOf e.index history = some e) ∧
    (issuedIn history).map UInt32.toNat ++ s.free =
      List.range capacity.toNat ++ (releasedIn history).map UInt32.toNat ∧
    ∀ before x later e, history = before ++ x :: later → x.released? = some e →
      (s.isLive e = true ↔
        2 ^ 32 ∣ releasesOf e.index later + 1 ∧ holderOf e.index later ≠ none) ∧
      (releasesOf e.index later < 2 ^ 32 - 1 ∨ holderOf e.index later = none → s.Refuses e) := by
  intro s history live
  have h : Account capacity history s := (Account.empty capacity).after calls
  refine ⟨⟨h.nodup, h.mem_free⟩, h.liveCount_eq, fun i => ?_, fun e s' hallocate => ?_,
    h.allocate_eq_none_iff, fun i => (h.slot i).generation, h.isLive_iff_holder, h.queue,
    fun before x later e hsplit hx => ?_⟩
  · rw [← (h.slot i).location]
    cases (s.slotAt i).occupancy <;> rfl
  · have htook := took_of_allocate h.sound hallocate
    have hslot : s'.slotAt e.index = ⟨e.generation, .live none⟩ := by
      rw [htook.slotAt, Function.update_self]
    refine ⟨isLive_iff.2 ⟨none, hslot⟩, ?_⟩
    rw [Option.eq_none_iff_forall_ne_some]
    intro location hsome
    rw [location?_eq_some, hslot] at hsome
    simp at hsome
  · have hlive := h.isLive_iff_dvd hsplit hx (Account.generation_of_released hsplit hx)
    refine ⟨hlive, fun hearly => refuses_of_not_live (eq_false_of_ne_true fun hback => ?_)⟩
    obtain ⟨hdvd, hheld⟩ := hlive.1 hback
    rcases hearly with hfew | hnone
    · exact absurd (Nat.le_of_dvd (Nat.succ_pos _) hdvd) (by omega)
    · exact hheld hnone

/-- One slot given out, back and out again, and the handle of its first occupant. -/
theorem slots_recycled_sample :
    let calls : List EntityCall := [.allocate, .release ⟨0, 0⟩, .allocate, .release ⟨0, 0⟩]
    let s := (empty 1).after calls
    s.isLive ⟨0, 1⟩ = true ∧ s.Refuses ⟨0, 0⟩ := by
  intro calls s
  obtain ⟨-, -, -, -, -, -, hlive, -, hstale⟩ := slots_recycled 1 calls
  refine ⟨(hlive ⟨0, 1⟩).2 (by decide), ?_⟩
  obtain ⟨-, hrefuses⟩ := hstale [⟨.allocate, .allocated (some ⟨0, 0⟩)⟩]
    ⟨.release ⟨0, 0⟩, .done true⟩
    [⟨.allocate, .allocated (some ⟨0, 1⟩)⟩, ⟨.release ⟨0, 0⟩, .done false⟩] ⟨0, 0⟩ (by decide) rfl
  exact hrefuses (.inl (by decide))

end EntityStore
end Lockstep
