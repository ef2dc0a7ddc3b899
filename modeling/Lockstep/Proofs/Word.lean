import Lockstep.Word
import Mathlib.Algebra.Order.Ring.Nat
import Mathlib.Data.Nat.Bitwise

/-!
# Laws of checked words

Chains of checked operations are taken apart at the first one that faults.  To round up is to
take the least multiple that is not below; powers of two divide one another.
-/

namespace Lockstep

section Bind

variable {α β : Type} {x : Except Fault α} {f : α → Except Fault β}

theorem exists_of_bind {b : β} (h : x >>= f = .ok b) : ∃ a, x = .ok a ∧ f a = .ok b := by
  cases x with
  | error fault => contradiction
  | ok a => exact ⟨a, rfl, h⟩

theorem fault_of_bind {fault : Fault} (h : x >>= f = .error fault) :
    x = .error fault ∨ ∃ a, x = .ok a ∧ f a = .error fault := by
  cases x with
  | error fault' =>
      left
      exact congrArg _ (Except.error.inj h)
  | ok a => exact .inr ⟨a, rfl, h⟩

theorem bind_of_eq_ok {a : α} (h : x = .ok a) : (x >>= f) = f a := by
  rw [h]
  rfl

end Bind

section Steps

variable {ε σ : Type}

theorem get_apply (s : σ) : (get : EStateM ε σ σ) s = .ok s s := rfl

theorem modify_apply (f : σ → σ) (s : σ) : (modify f : EStateM ε σ PUnit) s = .ok ⟨⟩ (f s) := rfl

theorem throw_apply {α : Type} (e : ε) (s : σ) : (throw e : EStateM ε σ α) s = .error e s := rfl

end Steps

namespace Word

section Checked

variable {bound a b n : Nat} {fault : Fault}

theorem add_eq_ok (h : Word.add bound a b = .ok n) : n = a + b ∧ a + b < bound := by
  unfold Word.add at h
  split at h
  · rename_i hlt
    exact ⟨(Except.ok.inj h).symm, hlt⟩
  · contradiction

theorem add_eq_error (h : Word.add bound a b = .error fault) :
    fault = .addOverflow ∧ bound ≤ a + b := by
  unfold Word.add at h
  split at h
  · contradiction
  · rename_i hge
    exact ⟨(Except.error.inj h).symm, Nat.le_of_not_lt hge⟩

theorem mul_eq_ok (h : Word.mul bound a b = .ok n) : n = a * b ∧ a * b < bound := by
  unfold Word.mul at h
  split at h
  · rename_i hlt
    exact ⟨(Except.ok.inj h).symm, hlt⟩
  · contradiction

theorem mul_eq_error (h : Word.mul bound a b = .error fault) :
    fault = .mulOverflow ∧ bound ≤ a * b := by
  unfold Word.mul at h
  split at h
  · contradiction
  · rename_i hge
    exact ⟨(Except.error.inj h).symm, Nat.le_of_not_lt hge⟩

end Checked

section Rounding

variable {a b n : Nat}

theorem ceilDiv_le_iff (hb : 0 < b) : ceilDiv a b ≤ n ↔ a ≤ b * n := by
  rw [ceilDiv, ← Nat.lt_succ_iff, Nat.div_lt_iff_lt_mul hb, Nat.succ_mul, Nat.mul_comm]
  omega

theorem ceilDiv_mono {a' : Nat} (b : Nat) (h : a ≤ a') : ceilDiv a b ≤ ceilDiv a' b := by
  apply Nat.div_le_div_right
  omega

theorem ceilDiv_pos (ha : 0 < a) (hb : 0 < b) : 0 < ceilDiv a b := by
  apply Nat.div_pos _ hb
  omega

theorem dvd_alignUp (a b : Nat) : b ∣ alignUp a b := Nat.dvd_mul_left ..

theorem le_alignUp (a : Nat) (hb : 0 < b) : a ≤ alignUp a b := by
  have hle : a ≤ b * ceilDiv a b := (ceilDiv_le_iff hb).1 (Nat.le_refl _)
  rwa [Nat.mul_comm] at hle

theorem alignUp_lt (a : Nat) (hb : 0 < b) : alignUp a b < a + b := by
  have hle := Nat.div_mul_le_self (a + b - 1) b
  rw [alignUp, ceilDiv]
  omega

/-- No multiple from `a` on lies before the one that `a` is rounded up to. -/
theorem alignUp_le (hb : 0 < b) (hdvd : b ∣ n) (h : a ≤ n) : alignUp a b ≤ n := by
  obtain ⟨k, rfl⟩ := hdvd
  rw [alignUp, Nat.mul_comm b]
  apply Nat.mul_le_mul_right
  exact (ceilDiv_le_iff hb).2 h

theorem alignUp_of_dvd (hb : 0 < b) (h : b ∣ a) : alignUp a b = a :=
  Nat.le_antisymm (alignUp_le hb h (Nat.le_refl a)) (le_alignUp a hb)

end Rounding

/-- A number that shares no bit with its predecessor is a power of two. -/
theorem exists_pow_of_isPowerOfTwo {n : Nat} (h : isPowerOfTwo n = true) : ∃ k, n = 2 ^ k := by
  obtain ⟨hne, hand⟩ : n ≠ 0 ∧ n &&& (n - 1) = 0 := by
    simpa [isPowerOfTwo] using h
  refine ⟨n.log2, ?_⟩
  by_contra hpow
  have hle : 2 ^ n.log2 ≤ n := Nat.log2_self_le hne
  have hlt : n < 2 ^ (n.log2 + 1) := Nat.lt_log2_self
  -- Both numbers have the highest bit of the larger one.
  have hbit : ∀ m, 2 ^ n.log2 ≤ m → m < 2 ^ (n.log2 + 1) → m.testBit n.log2 = true := by
    intro m hm hm'
    have hdiv : m / 2 ^ n.log2 = 1 := Nat.div_eq_of_lt_le (by omega) (by omega)
    rw [Nat.testBit_eq_decide_div_mod_eq, hdiv]
    rfl
  have hboth := congrArg (Nat.testBit · n.log2) hand
  simp only [Nat.testBit_and, Nat.zero_testBit] at hboth
  rw [hbit n hle hlt, hbit (n - 1) (by omega) (by omega)] at hboth
  contradiction

theorem isPowerOfTwo_iff {n : Nat} : isPowerOfTwo n = true ↔ ∃ k, n = 2 ^ k := by
  constructor
  · exact exists_pow_of_isPowerOfTwo
  · rintro ⟨k, rfl⟩
    have hand : 2 ^ k &&& (2 ^ k - 1) = 0 := by
      rw [Nat.and_two_pow_sub_one_eq_mod, Nat.mod_self]
    have hne : 2 ^ k ≠ 0 := (Nat.two_pow_pos k).ne'
    exact Bool.and_eq_true_iff.2 ⟨bne_iff_ne.2 hne, beq_iff_eq.2 hand⟩

/-- Of two powers of two the smaller divides the larger. -/
theorem dvd_of_isPowerOfTwo {a b : Nat} (ha : isPowerOfTwo a = true) (hb : isPowerOfTwo b = true)
    (h : a ≤ b) : a ∣ b := by
  obtain ⟨k, rfl⟩ := exists_pow_of_isPowerOfTwo ha
  obtain ⟨l, rfl⟩ := exists_pow_of_isPowerOfTwo hb
  apply Nat.pow_dvd_pow
  exact (Nat.pow_le_pow_iff_right (by decide)).1 h

theorem dvd_max_of_isPowerOfTwo {a b : Nat} (ha : isPowerOfTwo a = true)
    (hb : isPowerOfTwo b = true) : a ∣ max a b := by
  rcases Nat.le_total a b with hle | hle
  · rw [Nat.max_eq_right hle]
    exact dvd_of_isPowerOfTwo ha hb hle
  · rw [Nat.max_eq_left hle]

theorem pos_of_isPowerOfTwo {a : Nat} (h : isPowerOfTwo a = true) : 0 < a := by
  obtain ⟨k, rfl⟩ := exists_pow_of_isPowerOfTwo h
  exact Nat.two_pow_pos k

end Word
end Lockstep
