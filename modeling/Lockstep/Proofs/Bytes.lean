import Lockstep.Bytes
import Mathlib.Algebra.Order.Ring.Nat
import Mathlib.Data.List.Basic

/-!
# Bytes of words

A number below the bound of its width reads back from its bytes, and records of one size read
back from the string of all of them.
-/

namespace Lockstep
namespace Bytes

theorem length_ofNat (width n : Nat) : (ofNat width n).length = width := by
  induction width generalizing n with
  | zero => rfl
  | succ width ih => rw [ofNat, List.length_cons, ih]

theorem toNat_ofNat (width n : Nat) : toNat (ofNat width n) = n % 256 ^ width := by
  induction width generalizing n with
  | zero => rw [ofNat, toNat, Nat.pow_zero, Nat.mod_one]
  | succ width ih =>
      rw [ofNat, toNat, ih, Nat.pow_succ', Nat.mod_mul]
      rfl

theorem getElem?_ofNat {width k : Nat} (hk : k < width) (n : Nat) :
    (ofNat width n)[k]? = some (n / 256 ^ k).toUInt8 := by
  induction width generalizing k n with
  | zero => exact absurd hk (Nat.not_lt_zero k)
  | succ width ih =>
      cases k with
      | zero => rw [ofNat, List.getElem?_cons_zero, Nat.pow_zero, Nat.div_one]
      | succ k =>
          rw [ofNat, List.getElem?_cons_succ, ih (Nat.lt_of_succ_lt_succ hk), Nat.div_div_eq_div_mul,
            ← Nat.pow_succ']

@[simp] theorem length_ofUInt32 (w : UInt32) : (ofUInt32 w).length = 4 := length_ofNat 4 _

@[simp] theorem length_ofUInt64 (w : UInt64) : (ofUInt64 w).length = 8 := length_ofNat 8 _

theorem ofNat_toNat_ofNat32 (w : UInt32) : UInt32.ofNat (toNat (ofNat 4 w.toNat)) = w := by
  rw [toNat_ofNat, Nat.mod_eq_of_lt (by simpa using w.toNat_lt), UInt32.ofNat_toNat]

theorem ofNat_toNat_ofNat64 (w : UInt64) : UInt64.ofNat (toNat (ofNat 8 w.toNat)) = w := by
  rw [toNat_ofNat, Nat.mod_eq_of_lt (by simpa using w.toNat_lt), UInt64.ofNat_toNat]

theorem toUInt32_append (w : UInt32) (bs : List UInt8) : toUInt32 (ofUInt32 w ++ bs) = w := by
  rw [toUInt32, List.take_left' (length_ofUInt32 w)]
  exact ofNat_toNat_ofNat32 w

theorem toUInt64_append (w : UInt64) (bs : List UInt8) : toUInt64 (ofUInt64 w ++ bs) = w := by
  rw [toUInt64, List.take_left' (length_ofUInt64 w)]
  exact ofNat_toNat_ofNat64 w

section Records

variable {α : Type} {f : α → List UInt8} {size : Nat} (h : ∀ a, (f a).length = size)
include h

theorem length_flatMap (l : List α) : (l.flatMap f).length = size * l.length := by
  induction l with
  | nil => rfl
  | cons a l ih =>
      rw [List.flatMap_cons, List.length_append, h, ih, List.length_cons, Nat.mul_succ, Nat.add_comm]

/-- Pieces of the size of a record are the records one after another. -/
theorem pieces_flatMap (hsize : 0 < size) (l : List α) :
    pieces size l.length (l.flatMap f) = l.map f := by
  induction l with
  | nil => rfl
  | cons a l ih =>
      have hne : (a :: l).flatMap f ≠ [] := by
        apply List.ne_nil_of_length_pos
        rw [length_flatMap h, List.length_cons]
        exact Nat.mul_pos hsize (Nat.succ_pos _)
      rw [List.length_cons, pieces]
      · rw [List.flatMap_cons, List.take_left' (h a), List.drop_left' (h a), ih, List.map_cons]
      · exact hne

theorem getElem?_flatMap {l : List α} {i k : Nat} {a : α} (hi : l[i]? = some a) (hk : k < size) :
    (l.flatMap f)[size * i + k]? = (f a)[k]? := by
  induction l generalizing i with
  | nil => simp at hi
  | cons b l ih =>
      cases i with
      | zero =>
          rw [List.getElem?_cons_zero, Option.some.injEq] at hi
          rw [hi, List.flatMap_cons, Nat.mul_zero, Nat.zero_add,
            List.getElem?_append_left (by rwa [h])]
      | succ i =>
          rw [List.getElem?_cons_succ] at hi
          rw [List.flatMap_cons, List.getElem?_append_right (by rw [h, Nat.mul_succ]; omega), h,
            ← ih hi]
          congr 1
          rw [Nat.mul_succ]
          omega

end Records

end Bytes
end Lockstep
