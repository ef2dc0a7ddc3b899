import Lockstep.Entity.Store
import Mathlib.Data.List.Nodup
import Mathlib.Data.List.Perm.Subperm
import Mathlib.Logic.Function.Basic

/-!
# Slots

Every index has a slot: one that was never used is free and in its first generation.  An
allocation takes a free slot as it is, and a release moves a taken one to its next
generation.  No other slot changes.
-/

namespace Lockstep
namespace EntityStore

variable {s s' : EntityStore} {e : Entity}

def slotAt (s : EntityStore) (i : UInt32) : EntitySlot := s.slots[i.toNat]?.getD ⟨0, .free⟩

theorem lt_size_of_live {i : UInt32} (h : (s.slotAt i).occupancy ≠ .free) :
    i.toNat < s.slots.size := by
  by_contra hlt
  apply h
  rw [slotAt, Array.getElem?_eq_none (Nat.le_of_not_lt hlt), Option.getD_none]

theorem isLive_iff :
    s.isLive e = true ↔ ∃ location, s.slotAt e.index = ⟨e.generation, .live location⟩ := by
  unfold isLive slot? slotAt
  cases hslot : s.slots[e.index.toNat]? with
  | none => simp
  | some slot =>
      obtain ⟨generation, occupancy⟩ := slot
      cases occupancy with
      | free => simp [Occupancy.isLive]
      | live location => simp [Occupancy.isLive]

theorem location?_eq_some {location : EntityLocation} :
    s.location? e = some location ↔
      s.slotAt e.index = ⟨e.generation, .live (some location)⟩ := by
  unfold location?
  constructor
  · intro h
    split at h
    · rename_i hlive
      obtain ⟨found, hslot⟩ := isLive_iff.1 hlive
      have hmem := lt_size_of_live (s := s) (i := e.index) (by simp [hslot])
      rw [slotAt, Array.getElem?_eq_getElem hmem, Option.getD_some] at hslot
      rw [slot?, Array.getElem?_eq_getElem hmem, Option.bind_some, hslot] at h
      rw [slotAt, Array.getElem?_eq_getElem hmem, Option.getD_some, hslot]
      exact congrArg (fun found => EntitySlot.mk e.generation (.live found)) h
    · contradiction
  · intro hslot
    have hmem := lt_size_of_live (s := s) (i := e.index) (by simp [hslot])
    rw [if_pos (isLive_iff.2 ⟨_, hslot⟩), slot?, Array.getElem?_eq_getElem hmem, Option.bind_some]
    rw [slotAt, Array.getElem?_eq_getElem hmem, Option.getD_some] at hslot
    rw [hslot]
    rfl

theorem slotAt_set (s' : EntityStore) {i : UInt32} {slot : EntitySlot}
    (hi : i.toNat < s.slots.size) (hslots : s'.slots = s.slots.setIfInBounds i.toNat slot) :
    s'.slotAt = Function.update s.slotAt i slot := by
  funext j
  by_cases hj : j = i
  · subst hj
    rw [Function.update_self, slotAt, hslots, Array.getElem?_setIfInBounds_self_of_lt hi,
      Option.getD_some]
  · have hne : i.toNat ≠ j.toNat := fun hij => hj (UInt32.toNat_inj.1 hij).symm
    rw [Function.update_of_ne hj, slotAt, hslots, Array.getElem?_setIfInBounds_ne hne, slotAt]

/-- A store that came about by allocation and release. -/
structure Sound (s : EntityStore) : Prop where
  size_le : s.slots.size ≤ s.capacity
  capacity_lt : s.capacity < UInt32.size
  nodup : s.released.Nodup
  released : ∀ i ∈ s.released, i.toNat < s.slots.size ∧ (s.slotAt i).occupancy = .free

theorem sound_empty (capacity : UInt32) : (empty capacity).Sound where
  size_le := Nat.zero_le _
  capacity_lt := capacity.toNat_lt
  nodup := List.nodup_nil
  released := by simp [empty]

theorem slotAt_empty (capacity i : UInt32) : (empty capacity).slotAt i = ⟨0, .free⟩ := by
  simp [slotAt, empty]

/-- There are no more released slots than used ones. -/
theorem Sound.length_le (hs : s.Sound) : s.released.length ≤ s.slots.size := by
  have hnodup : (s.released.map UInt32.toNat).Nodup :=
    hs.nodup.map fun _ _ => UInt32.toNat_inj.1
  have hsub : s.released.map UInt32.toNat ⊆ List.range s.slots.size := by
    intro n hn
    obtain ⟨i, hi, rfl⟩ := List.mem_map.1 hn
    exact List.mem_range.2 (hs.released i hi).1
  simpa using (List.subperm_of_subset hnodup hsub).length_le

/-- What an allocation does. -/
structure Took (s : EntityStore) (e : Entity) (s' : EntityStore) : Prop where
  free : s.slotAt e.index = ⟨e.generation, .free⟩
  slotAt : s'.slotAt = Function.update s.slotAt e.index ⟨e.generation, .live none⟩
  liveCount : s'.liveCount = s.liveCount + 1
  sound : s'.Sound

theorem took_push (hs : s.Sound) (hsize : s.slots.size < s.capacity) :
    s.Took ⟨UInt32.ofNat s.slots.size, 0⟩ { s with slots := s.slots.push ⟨0, .live none⟩ } := by
  have hindex : (UInt32.ofNat s.slots.size).toNat = s.slots.size :=
    UInt32.toNat_ofNat_of_lt' (Nat.lt_trans hsize hs.capacity_lt)
  have hslotAt : ({ s with slots := s.slots.push ⟨0, .live none⟩ } : EntityStore).slotAt =
      Function.update s.slotAt (UInt32.ofNat s.slots.size) ⟨0, .live none⟩ := by
    funext j
    by_cases hj : j = UInt32.ofNat s.slots.size
    · subst hj
      rw [Function.update_self, EntityStore.slotAt, hindex, Array.getElem?_push_size,
        Option.getD_some]
    · have hne : j.toNat ≠ s.slots.size := fun hj' =>
        hj (UInt32.toNat_inj.1 (hj'.trans hindex.symm))
      rw [Function.update_of_ne hj, EntityStore.slotAt, Array.getElem?_push, if_neg hne,
        EntityStore.slotAt]
  refine ⟨?_, hslotAt, ?_, ?_⟩
  · rw [EntityStore.slotAt, hindex, Array.getElem?_eq_none (Nat.le_refl _), Option.getD_none]
  · have hle := hs.length_le
    simp only [EntityStore.liveCount, Array.size_push]
    omega
  · constructor
    · rw [Array.size_push]
      exact hsize
    · exact hs.capacity_lt
    · exact hs.nodup
    · intro i hi
      obtain ⟨hlt, hfree⟩ := hs.released i hi
      refine ⟨by simpa using Nat.lt_succ_of_lt hlt, ?_⟩
      rw [hslotAt, Function.update_of_ne]
      · exact hfree
      · rintro rfl
        exact absurd hindex (Nat.ne_of_lt hlt)

theorem took_recycled (hs : s.Sound) {i : UInt32} {rest : List UInt32}
    (hreleased : s.released = i :: rest) :
    s.Took ⟨i, (s.slotAt i).generation⟩ { s with
      slots := s.slots.setIfInBounds i.toNat ⟨(s.slotAt i).generation, .live none⟩
      released := rest } := by
  obtain ⟨hlt, hfree⟩ := hs.released i (by simp [hreleased])
  have hnodup := hs.nodup
  rw [hreleased, List.nodup_cons] at hnodup
  have hslotAt := slotAt_set { s with
    slots := s.slots.setIfInBounds i.toNat ⟨(s.slotAt i).generation, .live none⟩
    released := rest } hlt rfl
  refine ⟨?_, hslotAt, ?_, ?_⟩
  · rw [← hfree]
  · have hle := hs.length_le
    rw [hreleased, List.length_cons] at hle
    simp only [EntityStore.liveCount, Array.size_setIfInBounds, hreleased, List.length_cons]
    omega
  · constructor
    · simpa using hs.size_le
    · exact hs.capacity_lt
    · exact hnodup.2
    · intro j hj
      obtain ⟨hltj, hfreej⟩ := hs.released j (by simp [hreleased, hj])
      refine ⟨by simpa using hltj, ?_⟩
      rw [hslotAt, Function.update_of_ne]
      · exact hfreej
      · rintro rfl
        exact hnodup.1 hj

theorem took_of_allocate (hs : s.Sound) (h : s.allocate = some (e, s')) : s.Took e s' := by
  unfold allocate at h
  split at h
  · rename_i hsize
    obtain ⟨rfl, rfl⟩ := Prod.mk.inj (Option.some.inj h)
    exact took_push hs hsize
  · split at h
    · contradiction
    · rename_i i rest hreleased
      have hlt := (hs.released i (by simp [hreleased])).1
      have hgeneration :
          (s.slots[i.toNat]?.map (·.generation)).getD 0 = (s.slotAt i).generation := by
        rw [slotAt, Array.getElem?_eq_getElem hlt, Option.map_some, Option.getD_some,
          Option.getD_some]
      dsimp only at h
      rw [hgeneration] at h
      obtain ⟨rfl, rfl⟩ := Prod.mk.inj (Option.some.inj h)
      exact took_recycled hs hreleased

/-- What a location does to the slot that it is given to. -/
structure Placed (s : EntityStore) (e : Entity) (location : EntityLocation) (s' : EntityStore) :
    Prop where
  slotAt : s'.slotAt = Function.update s.slotAt e.index ⟨e.generation, .live (some location)⟩
  liveCount : s'.liveCount = s.liveCount
  sound : s'.Sound

theorem placed_of_live (hs : s.Sound) (hlive : s.isLive e = true) (location : EntityLocation) :
    ∃ s', s.setLocation? e location = some s' ∧ s.Placed e location s' := by
  obtain ⟨found, hslot⟩ := isLive_iff.1 hlive
  have hlt := lt_size_of_live (s := s) (i := e.index) (by simp [hslot])
  have hslotAt := slotAt_set { s with
    slots := s.slots.setIfInBounds e.index.toNat ⟨e.generation, .live (some location)⟩ } hlt rfl
  refine ⟨_, if_pos hlive, hslotAt, ?_, ?_⟩
  · simp only [EntityStore.liveCount, Array.size_setIfInBounds]
  · constructor
    · simpa using hs.size_le
    · exact hs.capacity_lt
    · exact hs.nodup
    · intro i hi
      obtain ⟨hlti, hfree⟩ := hs.released i hi
      refine ⟨by simpa using hlti, ?_⟩
      rw [hslotAt, Function.update_of_ne]
      · exact hfree
      · rintro rfl
        simp [hslot] at hfree

/-- What a release does. -/
structure Freed (s : EntityStore) (e : Entity) (s' : EntityStore) : Prop where
  slotAt : s'.slotAt = Function.update s.slotAt e.index ⟨e.generation + 1, .free⟩
  liveCount : s.liveCount = s'.liveCount + 1
  sound : s'.Sound

theorem freed_of_live (hs : s.Sound) (hlive : s.isLive e = true) :
    ∃ s', s.release? e = some s' ∧ s.Freed e s' := by
  obtain ⟨found, hslot⟩ := isLive_iff.1 hlive
  have hlt := lt_size_of_live (s := s) (i := e.index) (by simp [hslot])
  have hslotAt := slotAt_set { s with
    slots := s.slots.setIfInBounds e.index.toNat ⟨e.generation + 1, .free⟩
    released := s.released ++ [e.index] } hlt rfl
  have hfresh : e.index ∉ s.released := fun hmem => by simpa [hslot] using (hs.released _ hmem).2
  have hsound : Sound { s with
      slots := s.slots.setIfInBounds e.index.toNat ⟨e.generation + 1, .free⟩
      released := s.released ++ [e.index] } := by
    constructor
    · simpa using hs.size_le
    · exact hs.capacity_lt
    · exact List.nodup_append_comm.1 (List.nodup_cons.2 ⟨hfresh, hs.nodup⟩)
    · intro i hi
      rw [hslotAt]
      by_cases hie : i = e.index
      · subst hie
        exact ⟨by simpa using hlt, by rw [Function.update_self]⟩
      · have hmem : i ∈ s.released := by simpa [hie] using hi
        rw [Function.update_of_ne hie]
        exact ⟨by simpa using (hs.released i hmem).1, (hs.released i hmem).2⟩
  refine ⟨_, if_pos hlive, hslotAt, ?_, hsound⟩
  have hle := hsound.length_le
  simp only [EntityStore.liveCount, Array.size_setIfInBounds, List.length_append,
    List.length_singleton] at hle ⊢
  omega

/-! ## Allocations that are followed up -/

theorem Took.isLive (h : s.Took e s') : s'.isLive e = true :=
  isLive_iff.2 ⟨none, by rw [h.slotAt, Function.update_self]⟩

/-- What an allocation does whose slot is then given a location. -/
structure Settled (s : EntityStore) (e : Entity) (location : EntityLocation) (s' : EntityStore) :
    Prop where
  free : s.slotAt e.index = ⟨e.generation, .free⟩
  slotAt : s'.slotAt = Function.update s.slotAt e.index ⟨e.generation, .live (some location)⟩
  liveCount : s'.liveCount = s.liveCount + 1
  sound : s'.Sound

theorem Took.settled (h : s.Took e s') (location : EntityLocation) :
    ∃ placed, s'.setLocation? e location = some placed ∧ s.Settled e location placed := by
  obtain ⟨placed, hplace, hplaced⟩ := placed_of_live h.sound h.isLive location
  refine ⟨placed, hplace, h.free, ?_, hplaced.liveCount.trans h.liveCount, hplaced.sound⟩
  rw [hplaced.slotAt, h.slotAt, Function.update_idem]

/-- What an allocation does whose slot is then given back. -/
structure Returned (s : EntityStore) (e : Entity) (s' : EntityStore) : Prop where
  free : s.slotAt e.index = ⟨e.generation, .free⟩
  slotAt : s'.slotAt = Function.update s.slotAt e.index ⟨e.generation + 1, .free⟩
  liveCount : s'.liveCount = s.liveCount
  sound : s'.Sound

theorem Took.returned (h : s.Took e s') :
    ∃ freed, s'.release? e = some freed ∧ s.Returned e freed := by
  obtain ⟨freed, hrelease, hfreed⟩ := freed_of_live h.sound h.isLive
  refine ⟨freed, hrelease, h.free, ?_, ?_, hfreed.sound⟩
  · rw [hfreed.slotAt, h.slotAt, Function.update_idem]
  · exact Nat.succ.inj (hfreed.liveCount.symm.trans h.liveCount)

namespace Returned

variable (h : s.Returned e s')
include h

/-- The slot was free and is free again, so nobody holds it before or after. -/
theorem slotAt_live (i generation : UInt32) (location : Option EntityLocation) :
    s'.slotAt i = ⟨generation, .live location⟩ ↔ s.slotAt i = ⟨generation, .live location⟩ := by
  rw [h.slotAt]
  by_cases hi : i = e.index
  · subst hi
    rw [Function.update_self, h.free]
    simp
  · rw [Function.update_of_ne hi]

theorem isLive_eq (f : Entity) : s'.isLive f = s.isLive f := by
  rw [Bool.eq_iff_iff, isLive_iff, isLive_iff]
  exact exists_congr (h.slotAt_live f.index f.generation)

theorem location?_eq (f : Entity) : s'.location? f = s.location? f := by
  apply Option.ext
  intro location
  rw [location?_eq_some, location?_eq_some, h.slotAt_live]

end Returned
end EntityStore
end Lockstep
