import Lockstep.Lane
import Mathlib.Data.List.Nodup
import Mathlib.Data.Nat.Bitwise

/-!
# Lane masks

A lane that joins a mask is counted once.  The lanes that an assignment names are
different from each other and fit a mask.
-/

namespace Lockstep

theorem countP_or_eq (f : Nat → Bool) {x : Nat} (hx : f x = false) (l : List Nat) :
    l.countP (fun i => f i || i == x) = l.countP f + l.count x := by
  induction l with
  | nil => rfl
  | cons a l ih =>
      by_cases ha : a = x
      · subst ha
        simp [ih, hx, Nat.add_assoc]
      · by_cases hf : f a
        · simp [ih, hf, ha]
          omega
        · simp [ih, hf, ha]

namespace LaneMask

def has (m : LaneMask) (lane : UInt32) : Bool := m.bits.toNat.testBit lane.toNat

@[simp] theorem has_empty (lane : UInt32) : empty.has lane = false := by
  simp [has, empty]

@[simp] theorem count_empty : empty.count = 0 := by decide

theorem toNat_bit {lane : UInt32} (h : lane < 64) :
    ((1 : UInt64) <<< lane.toUInt64).toNat = 2 ^ lane.toNat := by
  have hlane : lane.toNat < 64 := UInt32.lt_iff_toNat_lt.1 h
  have hpow : 2 ^ lane.toNat < 2 ^ 64 := Nat.pow_lt_pow_right (by omega) hlane
  rw [UInt64.toNat_shiftLeft, UInt32.toNat_toUInt64, Nat.mod_eq_of_lt hlane, Nat.shiftLeft_eq]
  simpa using Nat.mod_eq_of_lt hpow

theorem testBit_insert (bits : UInt64) {lane : UInt32} (h : lane < 64) (i : Nat) :
    (bits ||| 1 <<< lane.toUInt64).toNat.testBit i =
      (bits.toNat.testBit i || i == lane.toNat) := by
  rw [UInt64.toNat_or, toNat_bit h, Nat.testBit_or, Nat.testBit_two_pow]
  congr 1
  by_cases hi : i = lane.toNat
  · simp [hi]
  · simp [hi, Ne.symm hi]

theorem contains_eq (m : LaneMask) {lane : UInt32} (h : lane < 64) :
    m.contains lane = .ok (m.has lane) := by
  have hand : (m.bits &&& 1 <<< lane.toUInt64).toNat = (m.has lane).toNat * 2 ^ lane.toNat := by
    rw [UInt64.toNat_and, toNat_bit h, Nat.and_two_pow]
    rfl
  have hzero : (m.bits &&& 1 <<< lane.toUInt64 = 0) ↔ m.has lane = false := by
    rw [← UInt64.toNat_inj, hand]
    cases m.has lane <;> simp
  simp only [contains, bit, h, if_true, bind, Except.bind, pure, Except.pure, Except.ok.injEq]
  cases hhas : m.has lane <;> simp [hzero, hhas]

theorem has_of_set {m m' : LaneMask} {lane : UInt32} (h : lane < 64)
    (hset : m.set lane = .ok m') (other : UInt32) :
    m'.has other = (m.has other || other.toNat == lane.toNat) := by
  obtain rfl : ⟨m.bits ||| 1 <<< lane.toUInt64⟩ = m' := by simpa [set, bit, h] using hset
  exact testBit_insert m.bits h other.toNat

/-- A new lane joins the mask and raises its count by one. -/
theorem set_of_lt (m : LaneMask) {lane : UInt32} (h : lane < 64) (hnew : m.has lane = false) :
    ∃ m', m.set lane = .ok m' ∧ m'.count = m.count + 1 ∧
      ∀ other, m'.has other = (m.has other || other.toNat == lane.toNat) := by
  have hlane : lane.toNat < 64 := UInt32.lt_iff_toNat_lt.1 h
  refine ⟨⟨m.bits ||| 1 <<< lane.toUInt64⟩, ?_, ?_, ?_⟩
  · simp [set, bit, h]
  · have hcount : (List.range 64).count lane.toNat = 1 := by
      rw [List.nodup_range.count, if_pos (List.mem_range.2 hlane)]
    unfold count
    rw [← hcount, ← countP_or_eq _ hnew]
    apply List.countP_congr
    intro i _
    rw [testBit_insert m.bits h]
  · exact has_of_set h (by simp [set, bit, h])

theorem count_le (m : LaneMask) : m.count ≤ 64 := by
  simpa [count] using List.countP_le_length (p := m.bits.toNat.testBit) (l := List.range 64)

theorem toNat_count (m : LaneMask) : (UInt32.ofNat m.count).toNat = m.count :=
  UInt32.toNat_ofNat_of_lt' (m.count_le.trans_lt (by decide))

end LaneMask

namespace Pickup

theorem map_fst_filterMap {α β γ : Type} (f : α → β) (g : α → Option γ) (l : List α) :
    (l.filterMap fun a => (g a).map (f a, ·)).map Prod.fst =
      (l.filter fun a => (g a).isSome).map f := by
  induction l with
  | nil => rfl
  | cons a l ih => cases h : g a <;> simp [h, ih]

theorem assign_lanes (p : Pickup) (base first lanes : UInt32) :
    ((p.assign base first lanes).map Prod.fst).Nodup ∧
      ∀ lane ∈ (p.assign base first lanes).map Prod.fst, lane < lanes := by
  have hword : ∀ i < lanes.toNat, (UInt32.ofNat i).toNat = i := fun i hi =>
    UInt32.toNat_ofNat_of_lt' (hi.trans lanes.toNat_lt)
  unfold assign
  rw [map_fst_filterMap UInt32.ofNat (fun i => p.workOf base (first + UInt32.ofNat i))]
  constructor
  · refine List.Nodup.map_on ?_ (List.nodup_range.filter _)
    intro a ha b hb hab
    have ha := List.mem_range.1 (List.mem_of_mem_filter ha)
    have hb := List.mem_range.1 (List.mem_of_mem_filter hb)
    rw [← hword a ha, hab, hword b hb]
  · intro lane hlane
    obtain ⟨i, hi, rfl⟩ := List.mem_map.1 hlane
    have hi := List.mem_range.1 (List.mem_of_mem_filter hi)
    rw [UInt32.lt_iff_toNat_lt, hword i hi]
    exact hi

end Pickup
end Lockstep
