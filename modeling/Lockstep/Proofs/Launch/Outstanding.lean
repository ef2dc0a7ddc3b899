import Lockstep.Proofs.Launch.Performed
import Mathlib.Data.List.Flatten

/-!
# Outstanding work

What remains of a node is what nobody has claimed yet together with what some group
holds.  Invocations are reported with all their threads, so this can be said of whole
offsets.
-/

namespace Lockstep
namespace LaunchState

open Stage

variable {η : Type} {c : LaunchConfig} {d : Dispatcher η} {s : LaunchState η} {g i : Nat}
  {stage : Nat → Stage} {l : Ledger} {graph : TaskGraph η}

/-- Whether a group holds a thread of an offset of the node at an index: claimed for it and
not reported. -/
def holds (l : Ledger) (g i o : Nat) : Bool :=
  (l.hand g).any fun w => w.isOf i && w.invocationOffset.toNat == o

def isReported (graph : TaskGraph η) (l : Ledger) (i o : Nat) : Bool :=
  decide ((graph.pickup i).unit o 0 ∈ l.reported)

/-- The offsets in front of `n` of the node at an index that some group holds. -/
def heldOffsets (c : LaunchConfig) (l : Ledger) (i n : Nat) : List Nat :=
  (List.range n).filter fun o => (List.range c.numGroups).any fun g => holds l g i o

theorem holds_iff {o : Nat} : holds l g i o = true ↔
    ∃ w ∈ l.hand g, w.node.index = i ∧ w.invocationOffset.toNat = o := by
  simp [holds, Work.isOf]

theorem length_filter_range (n m : Nat) :
    ((List.range m).filter fun o => decide (n ≤ o)).length = m - n := by
  induction m with
  | zero => simp
  | succ m ih =>
      rw [List.range_succ, List.filter_append, List.length_append, ih]
      by_cases hle : n ≤ m <;> simp [hle] <;> omega

namespace Balanced

theorem of_hand (h : Balanced c graph l) (hg : g < c.numGroups) {w : Work} (hw : w ∈ l.hand g) :
    w ∈ claimedWork c l ∧ w ∉ l.reported := by
  have hg := List.mem_range.2 hg
  have hnodup := h.nodup
  rw [claimedWork, returnedWork, add_assoc, Multiset.nodup_add] at hnodup
  have hpooled : w ∈ pooled (List.range c.numGroups) l.ran +
      pooled (List.range c.numGroups) l.left := by
    rw [Multiset.mem_add, mem_pooled, mem_pooled]
    rcases List.mem_append.1 hw with hw | hw
    · exact .inl ⟨g, hg, hw⟩
    · exact .inr ⟨g, hg, hw⟩
  constructor
  · rw [claimedWork, returnedWork, add_assoc]
    exact Multiset.mem_add.2 (.inr hpooled)
  · intro hreported
    exact Multiset.disjoint_left.1 hnodup.2.2 hreported hpooled

theorem exists_hand (h : w ∈ claimedWork c l) (hw : w ∉ l.reported) :
    ∃ g < c.numGroups, w ∈ l.hand g := by
  rw [claimedWork, returnedWork, Multiset.mem_add, Multiset.mem_add, mem_pooled, mem_pooled] at h
  rcases h with (h | ⟨g, hg, h⟩) | ⟨g, hg, h⟩
  · exact absurd h hw
  · exact ⟨g, List.mem_range.1 hg, List.mem_append_left _ h⟩
  · exact ⟨g, List.mem_range.1 hg, List.mem_append_right _ h⟩

/-- An offset is held from its claim to its report. -/
theorem held_iff (h : Balanced c graph l) (hi : i < graph.numNodes) (hpos : 0 < graph.threads i)
    {o : Nat} (ho : o < graph.total i) :
    (∃ g < c.numGroups, holds l g i o = true) ↔
      o < graph.claimed i ∧ isReported graph l i o = false := by
  have ho' := ho.trans (graph.total_lt i)
  rw [isReported, decide_eq_false_iff_not]
  constructor
  · rintro ⟨g, hg, hholds⟩
    obtain ⟨w, hw, rfl, rfl⟩ := holds_iff.1 hholds
    obtain ⟨hclaimed, hreported⟩ := h.of_hand hg hw
    obtain ⟨-, hoffset, hthread, -⟩ := h.mem_claimedWork.1 hclaimed
    refine ⟨hoffset.trans_le (Nat.min_le_left _ _), fun hfirst => hreported ?_⟩
    rw [← h.eq_unit hclaimed]
    exact h.whole _ hi _ _ _ hthread hfirst
  · rintro ⟨hclaimed, hreported⟩
    have hunit := graph.unit_index (hi.trans graph.numNodes_lt) o 0
    have hoffset : ((graph.pickup i).unit o 0).invocationOffset.toNat = o :=
      UInt32.toNat_ofNat_of_lt' ho'
    have hmem : (graph.pickup i).unit o 0 ∈ claimedWork c l := by
      rw [h.mem_claimedWork, hunit, hoffset]
      exact ⟨hi, lt_min hclaimed ho, hpos, rfl⟩
    obtain ⟨g, hg, hhand⟩ := exists_hand hmem hreported
    exact ⟨g, hg, holds_iff.2 ⟨_, hhand, hunit, hoffset⟩⟩

theorem countOf_reported (h : Balanced c graph l) (hi : i < graph.numNodes) :
    countOf i l.reported =
      ((List.range (graph.total i)).filter (isReported graph l i)).length * graph.threads i := by
  have htotal := graph.total_lt i
  have hnodup : l.reported.Nodup :=
    Multiset.coe_nodup.1 (Multiset.nodup_of_le (reported_le_claimedWork c l) h.nodup)
  -- The works of the node are those of its reported offsets, with all their threads.
  have hperm : (l.reported.filter (Work.isOf i)).Perm
      (((List.range (graph.total i)).filter (isReported graph l i)).flatMap fun o =>
        (List.range (graph.threads i)).map ((graph.pickup i).unit o)) := by
    refine (List.perm_ext_iff_of_nodup (hnodup.filter _) ?_).2 fun w => ?_
    · have hspan : ((graph.pickup i).span 0 (graph.total i)).Nodup :=
        TaskGraph.nodup_span htotal.le
      rw [Pickup.span, Nat.sub_zero, ← List.range_eq_range'] at hspan
      exact hspan.sublist (List.Sublist.flatMap List.filter_sublist _)
    · constructor
      · intro hw
        obtain ⟨hreported, hof⟩ := List.mem_filter.1 hw
        obtain rfl : w.node.index = i := by simpa [Work.isOf] using hof
        have hclaimed := Multiset.mem_of_le (reported_le_claimedWork c l) hreported
        obtain ⟨-, hoffset, hthread, -⟩ := h.mem_claimedWork.1 hclaimed
        have hunit := h.eq_unit hclaimed
        rw [← hunit] at hreported
        have hfirst := h.whole _ hi _ _ 0 (Nat.zero_lt_of_lt hthread) hreported
        refine List.mem_flatMap.2 ⟨w.invocationOffset.toNat, ?_, ?_⟩
        · apply List.mem_filter.2
          exact ⟨List.mem_range.2 (hoffset.trans_le (Nat.min_le_right _ _)), decide_eq_true hfirst⟩
        · exact List.mem_map.2 ⟨_, List.mem_range.2 hthread, hunit⟩
      · intro hw
        obtain ⟨o, ho, hmap⟩ := List.mem_flatMap.1 hw
        obtain ⟨t, ht, rfl⟩ := List.mem_map.1 hmap
        have hfirst := of_decide_eq_true (List.mem_filter.1 ho).2
        apply List.mem_filter.2
        refine ⟨h.whole i hi o 0 t (List.mem_range.1 ht) hfirst, ?_⟩
        rw [graph.isOf_unit (hi.trans graph.numNodes_lt), decide_eq_true rfl]
  rw [countOf_coe, List.countP_eq_length_filter, hperm.length_eq]
  simp

/-- What remains of a node has not been claimed or is held by some group. -/
theorem remaining_eq (h : Balanced c graph l) (hi : i < graph.numNodes)
    (hpos : 0 < graph.threads i) :
    graph.remaining i =
      (graph.total i - graph.claimed i) + (heldOffsets c l i (graph.total i)).length := by
  have hdue := h.due i hi
  rw [h.countOf_reported hi, ← Nat.add_mul] at hdue
  have hdue := Nat.eq_of_mul_eq_mul_right hpos hdue
  have hreported : ∀ o < graph.total i, graph.claimed i ≤ o → isReported graph l i o = false := by
    intro o ho hle
    apply decide_eq_false
    intro hmem
    have hclaimed := (h.mem_claimedWork.1
      (Multiset.mem_of_le (reported_le_claimedWork c l) hmem)).2.1
    rw [graph.unit_index (hi.trans graph.numNodes_lt), Pickup.unit,
      UInt32.toNat_ofNat_of_lt' (ho.trans (graph.total_lt i))] at hclaimed
    omega
  -- The offsets are sorted by whether they have been reported, then by whether they have
  -- been claimed.
  generalize hrest : (List.range (graph.total i)).filter (fun o => !isReported graph l i o) = rest
  have hsplit := List.length_eq_length_filter_add (l := List.range (graph.total i))
    (isReported graph l i)
  have hsplit' := List.length_eq_length_filter_add (l := rest)
    fun o => decide (graph.claimed i ≤ o)
  have hfree : rest.filter (fun o => decide (graph.claimed i ≤ o)) =
      (List.range (graph.total i)).filter fun o => decide (graph.claimed i ≤ o) := by
    rw [← hrest, List.filter_filter]
    apply List.filter_congr
    intro o ho
    by_cases hle : graph.claimed i ≤ o
    · simp [hreported o (List.mem_range.1 ho) hle]
    · simp [hle]
  have hheld : rest.filter (fun o => !decide (graph.claimed i ≤ o)) =
      heldOffsets c l i (graph.total i) := by
    rw [← hrest, List.filter_filter, heldOffsets]
    apply List.filter_congr
    intro o ho
    have hiff := h.held_iff hi hpos (List.mem_range.1 ho)
    rw [Bool.eq_iff_iff]
    simpa using hiff.symm
  rw [hfree, hheld, length_filter_range] at hsplit'
  rw [List.length_range, hrest] at hsplit
  omega

end Balanced

namespace Live

theorem stage_of_idle (hcoherent : Coherent c s stage) (hg : g < c.numGroups)
    (hidle : s.phase g = .idle) : stage (c.blockOf g) = seek := by
  have hallows := hcoherent.allows g hg
  rw [place_of_phase hidle (by simp)] at hallows
  unfold Allows at hallows
  generalize stage (c.blockOf g) = σ at hallows
  cases hallows with
  | idle => rfl
  | gone => contradiction

theorem idle (hc : c.Valid) (h : Live c s stage l) (hcoherent : Coherent c s stage)
    (hg : g < c.numGroups) (hidle : s.phase g = .idle)
    (hnode : (s.block (c.blockOf g)).pickup.node.index = i) (hi : i < s.graph.numNodes) :
    s.graph.total i ≤ s.graph.claimed i ∧
      ∀ g', c.blockOf g' = c.blockOf g → ∀ o, holds l g' i o = false := by
  have hb := LaunchConfig.blockOf_lt hg
  have hstage := stage_of_idle hcoherent hg hidle
  subst hnode
  constructor
  · apply (h.reads _ hb).spent hi
    rw [hstage]
    exact trivial
  · intro g' hblock o
    obtain ⟨hran, hleft, -⟩ : l.ran g' = [] ∧ l.left g' = [] ∧ l.lost g' = [] := by
      have hholding :=
        (h.held _ hb).holding g' ((LaunchConfig.mem_party_some hc.groups_pos).2 hblock)
      rwa [hstage] at hholding
    simp [holds, Ledger.hand, hran, hleft]

end Live
end LaunchState
end Lockstep
