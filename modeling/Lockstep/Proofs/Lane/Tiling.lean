import Lockstep.Proofs.Lane.Deal
import Lockstep.Proofs.Lane.Mask
import Mathlib.Data.List.Nodup
import Mathlib.Data.List.ProdSigma

/-!
# Tilings

Groups whose lanes count their threads one after another share out a claim when each
offset of the claim that is below the total comes with each thread of an invocation, and
nothing comes twice.  That is so as soon as their work together is a run of whole
invocations.
-/

namespace Lockstep

def Work.pair (w : Work) : Nat × Nat := (w.invocationOffset.toNat, w.threadInInvocation.toNat)

namespace Pickup

/-- The offsets of a claim that are below the total. -/
def offsets (p : Pickup) (base : UInt32) (batch : Nat) : List Nat :=
  (List.range' base.toNat batch).filter (· < p.total.toNat)

/-- Groups with `lanes` lanes each, which count their threads from `firsts` on, share out a
claim of `batch` offsets. -/
structure SharesOut (p : Pickup) (base lanes : UInt32) (batch : Nat) (firsts : List UInt32) :
    Prop where
  once : ∀ offset thread,
    (firsts.flatMap fun first => (p.assign base first lanes).map (·.2.pair)).count
        (offset, thread) =
      if base.toNat ≤ offset ∧ offset < base.toNat + batch ∧ offset < p.total.toNat ∧
        thread < p.threads then 1 else 0
  about : ∀ first ∈ firsts, ∀ given ∈ p.assign base first lanes,
    given.2.node = p.node ∧ given.2.func = p.func
  idle : ∀ first ∈ firsts, ∀ lane < lanes, lane ∉ (p.assign base first lanes).map Prod.fst ↔
    p.total.toNat ≤ base.toNat + (first.toNat + lane.toNat) / p.threads
  front : ∀ first ∈ firsts, ∃ n ≤ lanes.toNat,
    (p.assign base first lanes).map Prod.fst = (List.range n).map UInt32.ofNat
  length : (firsts.map fun first => (p.assign base first lanes).length).sum =
    (p.offsets base batch).length * p.threads

theorem filter_range'_lt (m : Nat) (lo n : Nat) :
    (List.range' lo n).filter (· < m) = List.range' lo (min n (m - lo)) := by
  induction n with
  | zero => simp
  | succ n ih =>
      rw [List.range'_1_concat, List.filter_append, ih]
      by_cases hlt : lo + n < m
      · have h₁ : min n (m - lo) = n := by omega
        have h₂ : min (n + 1) (m - lo) = n + 1 := by omega
        rw [h₁, h₂, List.range'_1_concat]
        simp [hlt]
      · have h : min (n + 1) (m - lo) = min n (m - lo) := by omega
        simp [h, hlt]

theorem length_offsets (p : Pickup) (base : UInt32) (batch : Nat) :
    (p.offsets base batch).length =
      min (base.toNat + batch) p.total.toNat - min base.toNat p.total.toNat := by
  rw [offsets, filter_range'_lt, List.length_range']
  omega

theorem map_pair_span (p : Pickup) {lo hi : Nat} (h : hi ≤ p.total.toNat) :
    (p.span lo hi).map Work.pair = List.range' lo (hi - lo) ×ˢ List.range p.threads := by
  have htotal := p.total.toNat_lt
  rw [span, List.map_flatMap]
  change _ = (List.range' lo (hi - lo)).flatMap fun offset =>
    (List.range p.threads).map (Prod.mk offset)
  apply List.flatMap_congr
  intro offset hoffset
  have hoffset := List.mem_range'_1.1 hoffset
  rw [List.map_map]
  apply List.map_congr_left
  intro thread hthread
  have hthread := (List.mem_range.1 hthread).trans p.threadsPerInvocation.toNat_lt
  have hlt : offset < 2 ^ 32 := by omega
  simp only [Function.comp_apply, Work.pair, unit, UInt32.toNat_ofNat_of_lt' hthread,
    UInt32.toNat_ofNat_of_lt' hlt]

section Group

variable {p : Pickup} {base first lanes : UInt32} (hfits : first.toNat + lanes.toNat < 2 ^ 32)
include hfits

theorem lanes_eq : (p.assign base first lanes).map Prod.fst =
    ((List.range lanes.toNat).filter fun lane =>
      base.toNat + (first.toNat + lane) / p.threads < p.total.toNat).map UInt32.ofNat := by
  rw [assign_eq p base first lanes hfits, map_fst_filterMap UInt32.ofNat]
  congr 1
  apply List.filter_congr
  intro lane _
  unfold workAt
  split <;> simp_all

theorem not_mem_lanes_iff {lane : UInt32} (hlane : lane < lanes) :
    lane ∉ (p.assign base first lanes).map Prod.fst ↔
      p.total.toNat ≤ base.toNat + (first.toNat + lane.toNat) / p.threads := by
  have hlane := UInt32.lt_iff_toNat_lt.1 hlane
  rw [lanes_eq hfits, ← Nat.not_lt, not_iff_not]
  simp only [List.mem_map, List.mem_filter, List.mem_range, decide_eq_true_eq]
  constructor
  · rintro ⟨i, ⟨hi, hlt⟩, rfl⟩
    rwa [UInt32.toNat_ofNat_of_lt' (hi.trans lanes.toNat_lt)]
  · exact fun hlt => ⟨lane.toNat, ⟨hlane, hlt⟩, UInt32.ofNat_toNat⟩

omit hfits in
theorem filter_range_of_antitone {q : Nat → Bool} (hq : ∀ i j, i ≤ j → q j = true → q i = true)
    (m : Nat) : ∃ n ≤ m, (List.range m).filter q = List.range n := by
  induction m with
  | zero => exact ⟨0, le_rfl, rfl⟩
  | succ m ih =>
      cases hlast : q m with
      | true =>
          refine ⟨m + 1, le_rfl, List.filter_eq_self.2 fun i hi => hq i m ?_ hlast⟩
          exact Nat.le_of_lt_succ (List.mem_range.1 hi)
      | false =>
          obtain ⟨n, hn, hrange⟩ := ih
          refine ⟨n, Nat.le_succ_of_le hn, ?_⟩
          simp [List.range_succ, hrange, hlast]

/-- A later lane has no earlier offset, so the lanes that run stand in front. -/
theorem lanes_eq_range : ∃ n ≤ lanes.toNat,
    (p.assign base first lanes).map Prod.fst = (List.range n).map UInt32.ofNat := by
  obtain ⟨n, hn, hrange⟩ := filter_range_of_antitone
    (q := fun lane => base.toNat + (first.toNat + lane) / p.threads < p.total.toNat) (by
      intro i j hij hj
      have hdiv : (first.toNat + i) / p.threads ≤ (first.toNat + j) / p.threads :=
        Nat.div_le_div_right (by omega)
      simp only [decide_eq_true_eq] at hj ⊢
      omega) lanes.toNat
  exact ⟨n, hn, by rw [lanes_eq hfits, hrange]⟩

end Group

theorem SharesOut.of_span {p : Pickup} {base lanes : UInt32} {batch : Nat} {firsts : List UInt32}
    (hfits : ∀ first ∈ firsts, first.toNat + lanes.toNat < 2 ^ 32)
    (h : (firsts.flatMap fun first => (p.assign base first lanes).map Prod.snd) =
      p.span (min base.toNat p.total.toNat) (min (base.toNat + batch) p.total.toNat)) :
    p.SharesOut base lanes batch firsts where
  once offset thread := by
    have hpairs := congrArg (List.map Work.pair) h
    rw [List.map_flatMap, map_pair_span p (Nat.min_le_right _ _)] at hpairs
    simp only [List.map_map, Function.comp_def] at hpairs
    have hnodup := List.Nodup.product
      (List.nodup_range' (s := min base.toNat p.total.toNat)
        (n := min (base.toNat + batch) p.total.toNat - min base.toNat p.total.toNat))
      (List.nodup_range (n := p.threads))
    rw [hpairs, hnodup.count]
    refine if_congr ?_ rfl rfl
    simp only [List.mem_product, List.mem_range'_1, List.mem_range]
    omega
  about first hfirst given hgiven := by
    have hmem : given.2 ∈ p.span (min base.toNat p.total.toNat)
        (min (base.toNat + batch) p.total.toNat) := by
      rw [← h]
      exact List.mem_flatMap.2 ⟨first, hfirst, List.mem_map_of_mem hgiven⟩
    obtain ⟨_, _, -, -, -, hunit⟩ := mem_span.1 hmem
    rw [hunit]
    exact ⟨rfl, rfl⟩
  idle first hfirst _ hlane := not_mem_lanes_iff (hfits first hfirst) hlane
  front first hfirst := lanes_eq_range (hfits first hfirst)
  length := by
    have hlength := congrArg List.length h
    simpa [length_span, length_offsets, List.length_flatMap] using hlength

end Pickup
end Lockstep
