import Lockstep.Entity.History
import Lockstep.Proofs.Storage.Slots

/-!
# The queue of the free slots

The free slots wait in a queue.  An allocation takes the first of them, and a release puts a
slot behind the others.
-/

namespace Lockstep
namespace EntityStore

variable {s s' : EntityStore} {e : Entity}

theorem free_empty (capacity : UInt32) : (empty capacity).free = List.range capacity.toNat := by
  simp [free, empty, List.range_eq_range']

theorem allocate_eq_none : s.allocate = none ↔ s.free = [] := by
  unfold allocate free
  split
  · rename_i hsize
    refine iff_of_false (by simp) ?_
    rw [List.append_eq_nil_iff, List.range'_eq_nil_iff]
    omega
  · rename_i hsize
    rw [Nat.sub_eq_zero_of_le (Nat.le_of_not_lt hsize)]
    cases s.released <;> simp

theorem free_allocate (hs : s.Sound) (h : s.allocate = some (e, s')) :
    s.free = e.index.toNat :: s'.free := by
  unfold allocate at h
  split at h
  · rename_i hsize
    obtain ⟨rfl, rfl⟩ := Prod.mk.inj (Option.some.inj h)
    have hindex : (UInt32.ofNat s.slots.size).toNat = s.slots.size :=
      UInt32.toNat_ofNat_of_lt' (Nat.lt_trans hsize hs.capacity_lt)
    have hleft : s.capacity - s.slots.size = s.capacity - (s.slots.size + 1) + 1 := by omega
    simp only [free, hindex, Array.size_push]
    rw [hleft, List.range'_succ, List.cons_append]
  · rename_i hsize
    split at h
    · contradiction
    · rename_i i rest hreleased
      obtain ⟨rfl, rfl⟩ := Prod.mk.inj (Option.some.inj h)
      simp only [free, Array.size_setIfInBounds, hreleased, List.map_cons]
      rw [Nat.sub_eq_zero_of_le (Nat.le_of_not_lt hsize)]
      rfl

theorem free_release (h : s.release? e = some s') : s'.free = s.free ++ [e.index.toNat] := by
  unfold release? at h
  split at h
  · obtain rfl := Option.some.inj h
    simp only [free, Array.size_setIfInBounds, List.map_append, List.append_assoc]
    rfl
  · contradiction

theorem free_setLocation {location : EntityLocation} (h : s.setLocation? e location = some s') :
    s'.free = s.free := by
  unfold setLocation? at h
  split at h
  · obtain rfl := Option.some.inj h
    simp only [free, Array.size_setIfInBounds]
  · contradiction

theorem liveCount_add_length_free (hs : s.Sound) :
    s.liveCount + s.free.length = s.capacity := by
  have hused := hs.length_le
  have hsize := hs.size_le
  rw [liveCount, free, List.length_append, List.length_range', List.length_map]
  omega

theorem capacity_allocate (h : s.allocate = some (e, s')) : s'.capacity = s.capacity := by
  unfold allocate at h
  split at h
  · obtain ⟨-, rfl⟩ := Prod.mk.inj (Option.some.inj h)
    rfl
  · split at h
    · contradiction
    · obtain ⟨-, rfl⟩ := Prod.mk.inj (Option.some.inj h)
      rfl

theorem perform_allocate (h : s.allocate = some (e, s')) : (s.perform .allocate).2 = s' := by
  simp only [perform, h]

theorem after_allocate (h : s.allocate = some (e, s')) (calls : List EntityCall) :
    s.after (.allocate :: calls) = s'.after calls := by
  rw [after, List.foldl_cons, perform_allocate h]
  rfl

theorem perform_release (s : EntityStore) (e : Entity) :
    (s.perform (.release e)).2 = (s.release? e).getD s := by
  simp only [perform]
  cases s.release? e <;> rfl

theorem perform_setLocation (s : EntityStore) (e : Entity) (location : EntityLocation) :
    (s.perform (.setLocation e location)).2 = (s.setLocation? e location).getD s := by
  simp only [perform]
  cases s.setLocation? e location <;> rfl

/-- What a call does to the slots and to the queue. -/
inductive Step (s : EntityStore) (x : EntityExchange) : (s' : EntityStore) → Prop
  | issues {s' : EntityStore} {e : Entity} (hx : x = ⟨.allocate, .allocated (some e)⟩)
      (took : s.Took e s') (free : s.free = e.index.toNat :: s'.free)
      (capacity : s'.capacity = s.capacity) : Step s x s'
  | releases {s' : EntityStore} {e : Entity} (hx : x = ⟨.release e, .done true⟩)
      (live : s.isLive e = true) (freed : s.Freed e s')
      (free : s'.free = s.free ++ [e.index.toNat]) (capacity : s'.capacity = s.capacity) :
      Step s x s'
  | locates {s' : EntityStore} {e : Entity} {location : EntityLocation}
      (hx : x = ⟨.setLocation e location, .done true⟩) (live : s.isLive e = true)
      (placed : s.Placed e location s') (free : s'.free = s.free)
      (capacity : s'.capacity = s.capacity) : Step s x s'
  | refuses (hx : x.slot? = none) : Step s x s

theorem step (hs : s.Sound) (call : EntityCall) :
    s.Step ⟨call, (s.perform call).1⟩ (s.perform call).2 := by
  cases call with
  | allocate =>
      cases h : s.allocate with
      | none =>
          simp only [perform, h]
          exact .refuses rfl
      | some result =>
          obtain ⟨e, s'⟩ := result
          simp only [perform, h]
          exact .issues rfl (took_of_allocate hs h) (free_allocate hs h) (capacity_allocate h)
  | release e =>
      cases hlive : s.isLive e with
      | false =>
          have h : s.release? e = none := by simp [release?, hlive]
          simp only [perform, h]
          exact .refuses rfl
      | true =>
          obtain ⟨s', h, hfreed⟩ := freed_of_live hs hlive
          simp only [perform, h]
          refine .releases rfl hlive hfreed (free_release h) ?_
          rw [release?, if_pos hlive] at h
          rw [← Option.some.inj h]
  | setLocation e location =>
      cases hlive : s.isLive e with
      | false =>
          have h : s.setLocation? e location = none := by simp [setLocation?, hlive]
          simp only [perform, h]
          exact .refuses rfl
      | true =>
          obtain ⟨s', h, hplaced⟩ := placed_of_live hs hlive location
          simp only [perform, h]
          refine .locates rfl hlive hplaced (free_setLocation h) ?_
          rw [setLocation?, if_pos hlive] at h
          rw [← Option.some.inj h]

end EntityStore
end Lockstep
