import Lockstep.Lane
import Mathlib.Data.List.Basic
import Mathlib.Data.Nat.Bitwise
import Mathlib.Tactic.Ring
import Mathlib.Tactic.Linarith

/-!
# Dealing out claims

The lanes that serve a claim count their threads, and the threads of one invocation
stand next to each other.  A run of whole invocations therefore comes out as the
product of an interval of offsets with the threads of an invocation, whatever the
group boundaries in between.
-/

namespace Lockstep
namespace Pickup

def threads (p : Pickup) : Nat := p.threadsPerInvocation.toNat

def unit (p : Pickup) (offset thread : Nat) : Work :=
  ⟨p.node, p.func, UInt32.ofNat offset, UInt32.ofNat thread⟩

def workAt (p : Pickup) (base i : Nat) : Option Work :=
  if base + i / p.threads < p.total.toNat then some (p.unit (base + i / p.threads) (i % p.threads))
  else none

/-- The work of `count` threads of a claim, from the thread `first` on. -/
def deal (p : Pickup) (base first count : Nat) : List Work :=
  (List.range' first count).filterMap (p.workAt base)

/-- All work of the invocations with offsets in front of `hi`, from `lo` on. -/
def span (p : Pickup) (lo hi : Nat) : List Work :=
  (List.range' lo (hi - lo)).flatMap fun offset => (List.range p.threads).map (p.unit offset)

theorem deal_append (p : Pickup) (base first m n : Nat) :
    p.deal base first (m + n) = p.deal base first m ++ p.deal base (first + m) n := by
  have h : List.range' first (m + n) = List.range' first m ++ List.range' (first + m) n := by
    simp
  rw [deal, h, List.filterMap_append]
  rfl

theorem span_append (p : Pickup) {lo mid hi : Nat} (h₁ : lo ≤ mid) (h₂ : mid ≤ hi) :
    p.span lo mid ++ p.span mid hi = p.span lo hi := by
  obtain ⟨m, rfl⟩ := Nat.exists_eq_add_of_le h₁
  obtain ⟨n, rfl⟩ := Nat.exists_eq_add_of_le h₂
  have h : List.range' lo (m + n) = List.range' lo m ++ List.range' (lo + m) n := by
    simp
  have hlen : lo + m + n - lo = m + n := by omega
  simp only [span, Nat.add_sub_cancel_left, hlen, h, List.flatMap_append]

@[simp] theorem span_self (p : Pickup) (lo : Nat) : p.span lo lo = [] := by
  simp [span]

theorem span_succ (p : Pickup) {lo hi : Nat} (h : lo ≤ hi) :
    p.span lo (hi + 1) = p.span lo hi ++ (List.range p.threads).map (p.unit hi) := by
  rw [← p.span_append h (Nat.le_succ hi)]
  simp [span]

theorem length_span (p : Pickup) (lo hi : Nat) :
    (p.span lo hi).length = (hi - lo) * p.threads := by
  simp [span, List.length_flatMap, List.map_const']

theorem mem_span {p : Pickup} {lo hi : Nat} {w : Work} :
    w ∈ p.span lo hi ↔ ∃ o t, lo ≤ o ∧ o < hi ∧ t < p.threads ∧ w = p.unit o t := by
  simp only [span, List.mem_flatMap, List.mem_range'_1, List.mem_map, List.mem_range]
  constructor
  · rintro ⟨o, ⟨ho, ho'⟩, t, ht, rfl⟩
    exact ⟨o, t, ho, by omega, ht, rfl⟩
  · rintro ⟨o, t, ho, ho', ht, rfl⟩
    exact ⟨o, ⟨ho, by omega⟩, t, ht, rfl⟩

theorem unit_mem_span {p : Pickup} {lo hi o t t' : Nat} (h : p.unit o t ∈ p.span lo hi)
    (ht' : t' < p.threads) : p.unit o t' ∈ p.span lo hi := by
  obtain ⟨o', t'', hlo, hhi, -, hunit⟩ := mem_span.1 h
  have hoffset : UInt32.ofNat o = UInt32.ofNat o' := congrArg Work.invocationOffset hunit
  exact mem_span.2 ⟨o', t', hlo, hhi, ht', by rw [unit, unit, hoffset]⟩

theorem deal_one (p : Pickup) (h : 0 < p.threads) (base q : Nat) :
    p.deal base (p.threads * q) p.threads =
      if base + q < p.total.toNat then (List.range p.threads).map (p.unit (base + q)) else [] := by
  have hdiv : ∀ t < p.threads, (p.threads * q + t) / p.threads = q := by
    intro t ht
    rw [Nat.mul_add_div h, Nat.div_eq_of_lt ht, Nat.add_zero]
  have hmod : ∀ t < p.threads, (p.threads * q + t) % p.threads = t := by
    intro t ht
    rw [Nat.mul_add_mod, Nat.mod_eq_of_lt ht]
  rw [deal, List.range'_eq_map_range, List.filterMap_map]
  split
  · rename_i hq
    rw [← List.filterMap_eq_map]
    apply List.filterMap_congr
    intro t ht
    have ht := List.mem_range.1 ht
    simp [workAt, hdiv t ht, hmod t ht, hq]
  · rename_i hq
    apply List.filterMap_eq_nil_iff.2
    intro t ht
    have ht := List.mem_range.1 ht
    simp [workAt, hdiv t ht, hq]

/-- Whole invocations are dealt out as an interval of offsets, cut off at the total. -/
theorem deal_eq_span (p : Pickup) (h : 0 < p.threads) (base q m : Nat) :
    p.deal base (p.threads * q) (p.threads * m) =
      p.span (min (base + q) p.total.toNat) (min (base + q + m) p.total.toNat) := by
  induction m with
  | zero => simp [deal, span]
  | succ m ih =>
      rw [Nat.mul_succ, deal_append, ih, ← Nat.mul_add, deal_one p h]
      split
      · rename_i hlt
        have h₁ : min (base + q + m) p.total.toNat = base + q + m := by omega
        have h₂ : min (base + q + (m + 1)) p.total.toNat = base + q + m + 1 := by omega
        have h₃ : min (base + q) p.total.toNat = base + q := by omega
        rw [h₁, h₂, h₃, span_succ p (by omega), Nat.add_assoc base q m]
      · have h₁ : min (base + q + m) p.total.toNat = min (base + q + (m + 1)) p.total.toNat := by
          omega
        rw [h₁, List.append_nil]

theorem deal_eq_nil (p : Pickup) {base : Nat} (h : p.total.toNat ≤ base) (first count : Nat) :
    p.deal base first count = [] := by
  apply List.filterMap_eq_nil_iff.2
  intro i _
  have hi : p.total.toNat ≤ base + i / p.threads := h.trans (Nat.le_add_right _ _)
  simp [workAt, Nat.not_lt.2 hi]

/-! The words in which lanes count are wide enough. -/

theorem workOf_eq_workAt (p : Pickup) (base thread : UInt32) :
    p.workOf base thread = p.workAt base.toNat thread.toNat := by
  have hmod : thread % p.threadsPerInvocation = UInt32.ofNat (thread.toNat % p.threads) := by
    apply UInt32.toNat_inj.1
    have hlt : thread.toNat % p.threads < 2 ^ 32 :=
      (Nat.mod_le _ _).trans_lt thread.toNat_lt
    rw [UInt32.toNat_mod, UInt32.toNat_ofNat_of_lt' hlt]
    rfl
  have hdiv : (thread / p.threadsPerInvocation).toNat = thread.toNat / p.threads :=
    UInt32.toNat_div _ _
  have htotal := p.total.toNat_lt
  unfold workOf workAt Word.saturatingAdd
  simp only [UInt32.lt_iff_toNat_lt, hdiv, hmod, unit]
  split
  · rename_i hfit
    have hsum : base + thread / p.threadsPerInvocation =
        UInt32.ofNat (base.toNat + thread.toNat / p.threads) := by
      apply UInt32.toNat_inj.1
      rw [UInt32.toNat_add, hdiv, UInt32.toNat_ofNat_of_lt' hfit]
      exact Nat.mod_eq_of_lt hfit
    have hnat : (UInt32.ofNat (base.toNat + thread.toNat / p.threads)).toNat =
        base.toNat + thread.toNat / p.threads := UInt32.toNat_ofNat_of_lt' hfit
    simp only [hsum, hnat]
  · rename_i hfit
    have hmax : (UInt32.ofNat (Word.size32 - 1)).toNat = Word.size32 - 1 := rfl
    have h₁ : ¬ (UInt32.ofNat (Word.size32 - 1)).toNat < p.total.toNat := by
      rw [hmax]
      change ¬ 2 ^ 32 - 1 < _
      omega
    have h₂ : ¬ base.toNat + thread.toNat / p.threads < p.total.toNat := by
      change ¬ _ < 2 ^ 32 at hfit
      omega
    rw [if_neg h₁, if_neg h₂]

theorem assign_eq (p : Pickup) (base first lanes : UInt32)
    (h : first.toNat + lanes.toNat < 2 ^ 32) :
    p.assign base first lanes = (List.range lanes.toNat).filterMap fun lane =>
      (p.workAt base.toNat (first.toNat + lane)).map (UInt32.ofNat lane, ·) := by
  apply List.filterMap_congr
  intro lane hlane
  have hlane := List.mem_range.1 hlane
  have hword : (UInt32.ofNat lane).toNat = lane := UInt32.toNat_ofNat_of_lt' (by
    change lane < 2 ^ 32
    omega)
  have hthread : (first + UInt32.ofNat lane).toNat = first.toNat + lane := by
    rw [UInt32.toNat_add, hword, Nat.mod_eq_of_lt (by omega)]
  simp only [workOf_eq_workAt, hthread]

theorem assign_map_snd (p : Pickup) (base first lanes : UInt32)
    (h : first.toNat + lanes.toNat < 2 ^ 32) :
    (p.assign base first lanes).map Prod.snd = p.deal base.toNat first.toNat lanes.toNat := by
  rw [assign_eq p base first lanes h, deal, List.map_filterMap, List.range'_eq_map_range,
    List.filterMap_map]
  simp [Option.map_map, Function.comp_def]

end Pickup
end Lockstep
