import Lockstep.Proofs.TaskGraph.Order
import Mathlib.Data.List.Nodup

/-!
# What has been dealt out

The claims of a node take its offsets one after another, so that the work dealt out is
known from the claim counters alone.  No two works of it are the same.
-/

namespace Lockstep

def Work.isOf (i : Nat) (w : Work) : Bool := w.node.index == i

namespace TaskGraph

variable {η : Type} {g g' : TaskGraph η} {i : Nat}

/-- The work of a node that its claims so far have dealt out. -/
def dealt (g : TaskGraph η) (i : Nat) : List Work :=
  (g.pickup i).span 0 (min (g.claimed i) (g.total i))

theorem dealt_eq_nil (h : g.total i = 0 ∨ g.claimed i = 0) : g.dealt i = [] := by
  have hmin : min (g.claimed i) (g.total i) = 0 := by omega
  rw [dealt, hmin, Pickup.span_self]

theorem mem_dealt {w : Work} :
    w ∈ g.dealt i ↔ ∃ o t, o < min (g.claimed i) (g.total i) ∧ t < g.threads i ∧
      w = (g.pickup i).unit o t := by
  simp only [dealt, Pickup.mem_span, Nat.zero_le, true_and, threads]

theorem unit_index (g : TaskGraph η) (hi : i < 2 ^ 32) (o t : Nat) :
    ((g.pickup i).unit o t).node.index = i := by
  rw [Pickup.unit, pickup_node]
  exact UInt32.toNat_ofNat_of_lt' hi

theorem isOf_unit (g : TaskGraph η) (hi : i < 2 ^ 32) (j o t : Nat) :
    ((g.pickup i).unit o t).isOf j = decide (i = j) := by
  rw [Work.isOf, g.unit_index hi]
  by_cases hij : i = j <;> simp [hij]

theorem countP_span (g : TaskGraph η) (hi : i < 2 ^ 32) (j lo hi' : Nat) :
    ((g.pickup i).span lo hi').countP (Work.isOf j) =
      if i = j then (hi' - lo) * g.threads i else 0 := by
  have hall : ∀ w ∈ (g.pickup i).span lo hi', w.isOf j = decide (i = j) := by
    intro w hw
    obtain ⟨o, t, -, -, -, rfl⟩ := Pickup.mem_span.1 hw
    exact isOf_unit g hi j o t
  split
  · rename_i hij
    rw [threads, ← Pickup.length_span, List.countP_eq_length]
    intro w hw
    rw [hall w hw, decide_eq_true hij]
  · rename_i hij
    rw [List.countP_eq_zero]
    intro w hw
    rw [hall w hw, decide_eq_false hij]
    exact Bool.false_ne_true

theorem countP_dealt (g : TaskGraph η) {n : Nat} (hn : n ≤ 2 ^ 32) (i : Nat) :
    ((List.range n).flatMap g.dealt).countP (Work.isOf i) =
      if i < n then min (g.claimed i) (g.total i) * g.threads i else 0 := by
  induction n with
  | zero => rfl
  | succ n ih =>
      rw [List.range_succ, List.flatMap_append, List.countP_append, ih (Nat.le_of_succ_le hn),
        List.flatMap_singleton, dealt, countP_span g hn, Nat.sub_zero]
      by_cases hi : n = i
      · subst hi
        simp
      · have hlt : i < n + 1 ↔ i < n := by omega
        simp only [if_neg hi, Nat.add_zero, hlt]

theorem unit_inj {p : Pickup} {o o' t t' : Nat} (ho : o < 2 ^ 32) (ho' : o' < 2 ^ 32)
    (ht : t < p.threads) (ht' : t' < p.threads) (h : p.unit o t = p.unit o' t') :
    o = o' ∧ t = t' := by
  have hthreads : p.threads < 2 ^ 32 := UInt32.toNat_lt _
  have hoffset := congrArg (fun w => w.invocationOffset.toNat) h
  have hthread := congrArg (fun w => w.threadInInvocation.toNat) h
  simp only [Pickup.unit] at hoffset hthread
  rw [UInt32.toNat_ofNat_of_lt' ho, UInt32.toNat_ofNat_of_lt' ho'] at hoffset
  rw [UInt32.toNat_ofNat_of_lt' (ht.trans hthreads),
    UInt32.toNat_ofNat_of_lt' (ht'.trans hthreads)] at hthread
  exact ⟨hoffset, hthread⟩

theorem nodup_span {p : Pickup} {lo hi : Nat} (hhi : hi ≤ 2 ^ 32) : (p.span lo hi).Nodup := by
  refine List.nodup_flatMap.2 ⟨fun o ho => ?_, ?_⟩
  · have ho := List.mem_range'_1.1 ho
    refine List.Nodup.map_on (fun t ht t' ht' h => ?_) List.nodup_range
    exact (unit_inj (by omega) (by omega) (List.mem_range.1 ht) (List.mem_range.1 ht') h).2
  · refine List.Pairwise.imp_of_mem (fun {o o'} ho ho' hlt => ?_) (List.pairwise_lt_range' ..)
    have ho := List.mem_range'_1.1 ho
    have ho' := List.mem_range'_1.1 ho'
    apply List.disjoint_left.2
    intro w hw hw'
    obtain ⟨t, ht, rfl⟩ := List.mem_map.1 hw
    obtain ⟨t', ht', h⟩ := List.mem_map.1 hw'
    have heq := (unit_inj (by omega) (by omega) (List.mem_range.1 ht') (List.mem_range.1 ht) h).1
    omega

theorem nodup_dealt (g : TaskGraph η) {n : Nat} (hn : n ≤ 2 ^ 32) :
    ((List.range n).flatMap g.dealt).Nodup := by
  refine List.nodup_flatMap.2 ⟨fun i _ => nodup_span ?_, ?_⟩
  · exact (Nat.min_le_right _ _).trans (g.total_lt i).le
  · refine List.Pairwise.imp_of_mem (fun {i j} hi hj hlt => ?_) (List.pairwise_lt_range)
    have hi := List.mem_range.1 hi
    have hj := List.mem_range.1 hj
    apply List.disjoint_left.2
    intro w hw hw'
    obtain ⟨o, t, -, -, rfl⟩ := mem_dealt.1 hw
    obtain ⟨o', t', -, -, h⟩ := mem_dealt.1 hw'
    have hof := isOf_unit g (hj.trans_le hn) j o' t'
    rw [← h, isOf_unit g (hi.trans_le hn), decide_eq_true rfl] at hof
    exact absurd (of_decide_eq_true hof) hlt.ne

theorem SameSpecs.unit (h : SameSpecs g g') (i o t : Nat) :
    (g'.pickup i).unit o t = (g.pickup i).unit o t := by
  rw [Pickup.unit, Pickup.unit, pickup_node, pickup_node, h.func]

/-- A claim deals out the offsets that it takes, up to the total. -/
theorem Claim.dealt {id : NodeId} {batch base : UInt32} (h : Claim g id batch base g')
    (hroom : g.claimed id.index + batch.toNat < 2 ^ 64) (i : Nat) :
    g'.dealt i = g.dealt i ++
      if i = id.index then (g.pickup i).span (min base.toNat (g.total i))
        (min (base.toNat + batch.toNat) (g.total i)) else [] := by
  have htotal := g.total_lt i
  have hbase := h.base_eq
  rw [TaskGraph.dealt, TaskGraph.dealt, TaskGraph.total, h.pickup, h.claimed_eq hroom]
  change (g.pickup i).span 0 (min _ (g.total i)) = _
  split
  · rename_i hi
    subst hi
    have hmid :
        min base.toNat (g.total id.index) = min (g.claimed id.index) (g.total id.index) := by
      omega
    have hend : min (base.toNat + batch.toNat) (g.total id.index) =
        min (g.claimed id.index + batch.toNat) (g.total id.index) := by omega
    rw [hmid, hend, Pickup.span_append _ (Nat.zero_le _) (by omega)]
  · rw [Nat.add_zero, List.append_nil]

theorem Reported.dealt {j n : Nat} {ok : Bool} {asks : List Nat} (h : Reported g j n ok g' asks)
    (hg : Ordered g) (hj : j ≤ g.cursor.toNat) (hle : n ≤ g.remaining j) (i : Nat) :
    g'.dealt i = g.dealt i := by
  rcases Nat.lt_or_ge g.cursor.toNat i with hi | hi
  · rw [dealt_eq_nil (.inr (h.front hg hj hi).1), dealt_eq_nil (.inl (hg.front i (.inl hi)).1)]
  · obtain ⟨hpickup, hclaimed, -⟩ := h.upto hg hj hle hi
    rw [TaskGraph.dealt, TaskGraph.dealt, TaskGraph.total, TaskGraph.total, hpickup, hclaimed]

end TaskGraph
end Lockstep
