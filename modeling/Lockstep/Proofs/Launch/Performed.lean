import Lockstep.Proofs.Launch.Agreement
import Lockstep.Proofs.Launch.Course

/-!
# Exactly once

The history of a launch consists of what its ledger has as returned or lost, and that is
part of what has been dealt out.  No invocation has the same thread twice, and a node
with nothing remaining has been run in full.
-/

namespace Lockstep

def Work.triple (w : Work) : NodeId × UInt32 × UInt32 :=
  (w.node, w.invocationOffset, w.threadInInvocation)

theorem Phase.work?_eq_none {q : Phase} (h : q.isPosting = false) : q.work? = none := by
  cases q with
  | execute pending executed =>
      cases pending with
      | nil => rfl
      | cons => contradiction
  | _ => rfl

namespace LaunchState

open Stage

variable {η : Type} {c : LaunchConfig} {d : Dispatcher η} {s : LaunchState η} {g : Nat}
  {stage : Nat → Stage} {l l' : Ledger} {graph : TaskGraph η}

/-- All work that has been run, to its end or to a fault. -/
def performedWork (c : LaunchConfig) (l : Ledger) : Multiset Work :=
  returnedWork c l + pooled (List.range c.numGroups) l.lost

theorem performedWork_empty (c : LaunchConfig) : performedWork c .empty = 0 := by
  have hnone : pooled (List.range c.numGroups) (fun _ => []) = 0 := pooled_eq_zero fun _ _ => rfl
  rw [performedWork, returnedWork, Ledger.empty, hnone]
  rfl

theorem reported_le_performedWork (c : LaunchConfig) (l : Ledger) :
    (l.reported : Multiset Work) ≤ performedWork c l :=
  (Multiset.le_add_right _ _).trans (Multiset.le_add_right _ _)

theorem reported_le_claimedWork (c : LaunchConfig) (l : Ledger) :
    (l.reported : Multiset Work) ≤ claimedWork c l :=
  (Multiset.le_add_right _ _).trans (Multiset.le_add_right _ _)

theorem performedWork_lose {work : Work} (hg : g < c.numGroups) (hlost : l.lost g = []) :
    performedWork c (l.lose g work) = performedWork c l + {work} := by
  have hone : [g] ⊆ List.range c.numGroups := by simpa using hg
  have hchange := pooled_change List.nodup_range (List.nodup_singleton g) hone
    (show ∀ g' ∉ [g], (l.lose g work).lost g' = l.lost g' from fun g' hg' => by
      simp_all [Ledger.lose])
  simp only [pooled_singleton, hlost, Multiset.coe_nil, add_zero] at hchange
  rw [performedWork, performedWork, hchange, ← add_assoc]
  simp [returnedWork, Ledger.lose]

theorem Posts.performedWork {pickup : Pickup} {p : Phase}
    (h : Posts c s g pickup l p graph l') (hg : g < c.numGroups)
    (hsub : c.party (some (c.blockOf g)) ⊆ List.range c.numGroups) :
    performedWork c l' = performedWork c l + ((s.phase g).work?.toList : List Work) := by
  cases h with
  | nothing hwork =>
      rw [hwork]
      exact (add_zero _).symm
  | finishes hwork =>
      rw [hwork, LaunchState.performedWork, returnedWork_finish hg, Ledger.lost_finish,
        add_right_comm]
      rfl
  | loses hwork _ hlost =>
      rw [hwork]
      exact performedWork_lose hg hlost
  | claims hwork =>
      rw [hwork]
      exact (add_zero _).symm
  | reports hphase hnodup hsub' =>
      rw [hphase, LaunchState.performedWork,
        returnedWork_settle hnodup (List.Subset.trans hsub' hsub)]
      exact (add_zero _).symm

theorem Holding.lost_sublist {p : Pickup} {base : UInt32} {σ : Stage} {phase : Phase}
    {ran left lost : List Work} (h : Holding c p base g σ phase ran left lost) :
    lost.Sublist left := by
  have hworking : ∀ {phase}, Working c p base g phase ran left lost → lost.Sublist left := by
    intro phase h
    unfold Working at h
    split at h <;> simp_all
  cases σ with
  | wide | narrow => exact hworking h.1
  | _ =>
      obtain ⟨-, -, rfl⟩ := h
      exact List.nil_sublist _

theorem Live.performedWork_le (hc : c.Valid) (h : Live c s stage l) :
    performedWork c l ≤ claimedWork c l := by
  refine add_le_add_right (pooled_le fun g hg => ?_) _
  have hg := List.mem_range.1 hg
  have hmem := (LaunchConfig.mem_party_some hc.groups_pos).2 (rfl : c.blockOf g = c.blockOf g)
  exact ((h.held _ (LaunchConfig.blockOf_lt hg)).holding g hmem).lost_sublist

namespace OnCourse

/-- Every step performs what the history says. -/
theorem performedWork_step (hc : c.Valid) (h : OnCourse c s stage l)
    (hcoherent : Coherent c s stage) (g : Nat) :
    performedWork c (nextLedger c d s g l) =
      performedWork c l + ((s.phase g).work?.toList : List Work) := by
  have hquiet : (s.phase g).isPosting = false → performedWork c (nextLedger c d s g l) =
      performedWork c l + ((s.phase g).work?.toList : List Work) := by
    intro hposting
    rw [nextLedger_same rfl hposting, Phase.work?_eq_none hposting]
    exact (add_zero _).symm
  rcases h with h | h
  · exact hquiet (h.not_isPosting hcoherent g)
  cases stepped (d := d) hcoherent.groups_size hcoherent.blocks_size g with
  | @moves q _ _ _ hg hphase hapart hmove hm =>
      have hq : ∀ site n, q ≠ .waiting site n := by
        rintro site n rfl
        contradiction
      obtain ⟨_, hturn⟩ := hcoherent.turn hg hphase hq hmove
      apply (h.posts hc hcoherent hg hphase hapart hturn hm).1.performedWork hg
      exact LaunchConfig.party_subset hc.groups_pos (LaunchConfig.blockOf_lt hg)
  | arrives _ hphase _ | looks _ hphase _ | releases _ hphase _ =>
      exact hquiet (by rw [hphase]; rfl)
  | stays hphase _ =>
      apply hquiet
      cases hq : s.phase g <;> rw [hq] at hphase <;> first | rfl | contradiction

theorem performedWork_follow (hc : c.Valid) (h : OnCourse c s stage l)
    (hcoherent : Coherent c s stage) (schedule : List Nat) :
    performedWork c (ledger c d schedule s l) =
      performedWork c l + (history c d schedule s : List Work) := by
  induction schedule generalizing s stage l with
  | nil => exact (add_zero _).symm
  | cons g schedule ih =>
      rw [ledger, ih (h.step hc hcoherent g) (hcoherent.step g),
        h.performedWork_step hc hcoherent g, history, ← Multiset.coe_add, add_assoc]

end OnCourse

namespace Balanced

theorem mem_claimedWork (h : Balanced c graph l) {w : Work} :
    w ∈ claimedWork c l ↔ w.node.index < graph.numNodes ∧
      w.invocationOffset.toNat < min (graph.claimed w.node.index) (graph.total w.node.index) ∧
      w.threadInInvocation.toNat < graph.threads w.node.index ∧
      w.func = (graph.pickup w.node.index).func := by
  rw [h.balance, mem_pooled]
  constructor
  · rintro ⟨i, hi, hw⟩
    have hi := List.mem_range.1 hi
    obtain ⟨o, t, ho, ht, rfl⟩ := TaskGraph.mem_dealt.1 hw
    rw [graph.unit_index (hi.trans graph.numNodes_lt)]
    have ho' : o < 2 ^ 32 := (ho.trans_le (Nat.min_le_right _ _)).trans (graph.total_lt i)
    have ht' : t < 2 ^ 32 := ht.trans (UInt32.toNat_lt _)
    refine ⟨hi, ?_, ?_, rfl⟩
    · rwa [Pickup.unit, UInt32.toNat_ofNat_of_lt' ho']
    · rwa [Pickup.unit, UInt32.toNat_ofNat_of_lt' ht']
  · rintro ⟨hi, ho, ht, hfunc⟩
    refine ⟨w.node.index, List.mem_range.2 hi, TaskGraph.mem_dealt.2 ⟨_, _, ho, ht, ?_⟩⟩
    simp [Pickup.unit, ← hfunc]

theorem eq_unit (h : Balanced c graph l) {w : Work} (hw : w ∈ claimedWork c l) :
    (graph.pickup w.node.index).unit w.invocationOffset.toNat w.threadInInvocation.toNat = w := by
  obtain ⟨-, -, -, hfunc⟩ := h.mem_claimedWork.1 hw
  simp [Pickup.unit, ← hfunc]

theorem triple_inj (h : Balanced c graph l) {w w' : Work} (hw : w ∈ claimedWork c l)
    (hw' : w' ∈ claimedWork c l) (htriple : w.triple = w'.triple) : w = w' := by
  obtain ⟨-, -, -, hfunc⟩ := h.mem_claimedWork.1 hw
  obtain ⟨-, -, -, hfunc'⟩ := h.mem_claimedWork.1 hw'
  obtain ⟨hnode, hrest⟩ := Prod.mk.inj htriple
  obtain ⟨hoffset, hthread⟩ := Prod.mk.inj hrest
  rw [hnode, ← hfunc'] at hfunc
  cases w
  cases w'
  simp_all

theorem spent_of_remaining (h : Balanced c graph l) {i : Nat} (hi : i < graph.numNodes)
    (hpos : 0 < graph.threads i) (hremaining : graph.remaining i = 0) :
    graph.total i ≤ graph.claimed i := by
  have hdue := h.due i hi
  have hcount :=
    Multiset.countP_le_of_le (fun w => Work.isOf i w = true) (reported_le_claimedWork c l)
  change countOf i l.reported ≤ countOf i (claimedWork c l) at hcount
  rw [h.countOf_claimedWork hi] at hcount
  rw [hremaining, Nat.zero_mul, Nat.add_zero] at hdue
  rw [hdue] at hcount
  exact (Nat.le_of_mul_le_mul_right hcount hpos).trans (Nat.min_le_left _ _)

theorem reported_of_remaining (h : Balanced c graph l) {w : Work} (hw : w ∈ claimedWork c l)
    (hremaining : graph.remaining w.node.index = 0) : w ∈ l.reported := by
  have hi := (h.mem_claimedWork.1 hw).1
  have hdue := h.due _ hi
  rw [hremaining, Nat.zero_mul, Nat.add_zero] at hdue
  -- As many works have been reported as have been dealt out, so they are the same.
  have hfilter : (l.reported : Multiset Work).filter (·.isOf w.node.index) =
      (claimedWork c l).filter (·.isOf w.node.index) := by
    apply Multiset.eq_of_le_of_card_le (Multiset.filter_le_filter _ (reported_le_claimedWork c l))
    rw [← Multiset.countP_eq_card_filter, ← Multiset.countP_eq_card_filter]
    change countOf _ (claimedWork c l) ≤ countOf _ l.reported
    rw [hdue, h.countOf_claimedWork hi]
    exact Nat.mul_le_mul_right _ (Nat.min_le_right _ _)
  have hmem : w ∈ (claimedWork c l).filter (·.isOf w.node.index) :=
    Multiset.mem_filter.2 ⟨hw, by simp [Work.isOf]⟩
  rw [← hfilter, Multiset.mem_filter] at hmem
  exact Multiset.mem_coe.1 hmem.1

theorem reported_all (h : Balanced c graph l) {i : Nat} (hpos : 0 < graph.threads i)
    (hremaining : graph.remaining i = 0) {o t : Nat} (ho : o < graph.total i)
    (ht : t < graph.threads i) : (graph.pickup i).unit o t ∈ l.reported := by
  have hi : i < graph.numNodes := by
    by_contra hi
    rw [(h.ordered.front i (.inr (Nat.le_of_not_lt hi))).1] at ho
    exact Nat.not_lt_zero o ho
  have hunit := graph.unit_index (hi.trans graph.numNodes_lt) o t
  have hspent := h.spent_of_remaining hi hpos hremaining
  apply h.reported_of_remaining _ (hunit.symm ▸ hremaining)
  rw [h.mem_claimedWork, hunit, Pickup.unit,
    UInt32.toNat_ofNat_of_lt' (ho.trans (graph.total_lt i)),
    UInt32.toNat_ofNat_of_lt' (ht.trans (UInt32.toNat_lt _))]
  exact ⟨hi, lt_min (ho.trans_le hspent) ho, ht, rfl⟩

/-- What has been dealt out belongs to no node in front of the cursor. -/
theorem index_le (h : Balanced c graph l) {w : Work} (hw : w ∈ claimedWork c l) :
    w.node.index ≤ graph.cursor.toNat := by
  by_contra hgt
  have hclaimed := (h.mem_claimedWork.1 hw).2.1
  rw [(h.ordered.front _ (.inl (Nat.lt_of_not_le hgt))).1, Nat.min_zero] at hclaimed
  exact Nat.not_lt_zero _ hclaimed

end Balanced

/-! ## The end of a launch -/

/-- When all groups have exited, the run has started and all nodes are done. -/
theorem OnCourse.finished (hc : c.Valid) (h : OnCourse c s stage l)
    (hcoherent : Coherent c s stage) (hexited : ∀ g < c.numGroups, s.phase g = .exited) :
    Live c s stage l ∧ s.graph.numNodes ≤ s.graph.cursor.toNat := by
  have hpos : 0 < c.numGroups := Nat.mul_pos hc.blocks_pos hc.groups_pos
  have hfirst := hexited 0 hpos
  rcases h with h | h
  · have hplace : s.place c 0 = .exited := place_of_phase hfirst (by simp)
    rcases h.place hcoherent hpos with hcase | hcase | hcase <;> rw [hplace] at hcase <;>
      contradiction
  · have hdone := (hcoherent.leaves hpos hfirst hpos rfl).1
    have hreads := h.reads _ (LaunchConfig.blockOf_lt hpos)
    exact ⟨h, hreads.done hdone (.inr (hcoherent.stage_of_exited hpos hfirst))⟩

end LaunchState
end Lockstep
