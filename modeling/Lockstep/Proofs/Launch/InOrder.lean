import Lockstep.Proofs.Launch.Asking
import Lockstep.Proofs.Launch.Outstanding

/-!
# Nodes in order

Work in hand is work of the current node, so a node starts when all nodes in front of it
are done, and its count is asked for when nothing is in hand.
-/

namespace Lockstep
namespace LaunchState

open Stage

variable {η : Type} {c : LaunchConfig} {d : Dispatcher η} {s : LaunchState η} {g j : Nat}
  {stage : Nat → Stage} {l : Ledger} {log : List Nat} {graph : TaskGraph η}

/-- All invocations of the node at an index have returned and have been reported. -/
structure IsDone (graph : TaskGraph η) (l : Ledger) (performed : List Work) (i : Nat) : Prop where
  remaining : graph.remaining i = 0
  reported : ∀ o < graph.total i, ∀ t < graph.threads i, (graph.pickup i).unit o t ∈ l.reported
  returned : ∀ o < graph.total i, ∀ t < graph.threads i, (graph.pickup i).unit o t ∈ performed

theorem IsDone.of_reported {performed : List Work} {i : Nat} (hremaining : graph.remaining i = 0)
    (hreported : ∀ o < graph.total i, ∀ t < graph.threads i,
      (graph.pickup i).unit o t ∈ l.reported)
    (hperformed : performedWork c l = (performed : Multiset Work)) :
    IsDone graph l performed i := by
  refine ⟨hremaining, hreported, fun o ho t ht => ?_⟩
  rw [← Multiset.mem_coe, ← hperformed]
  exact Multiset.mem_of_le (reported_le_performedWork c l) (hreported o ho t ht)

theorem Balanced.remaining_of_left (h : Balanced c graph l) (hg : g < c.numGroups) {w : Work}
    (hw : w ∈ l.left g) : graph.remaining w.node.index ≠ 0 := by
  obtain ⟨hclaimed, hreported⟩ := h.of_hand hg (List.mem_append_right _ hw)
  exact fun hremaining => hreported (h.reported_of_remaining hclaimed hremaining)

theorem Coherent.lt_numGroups (h : Coherent c s stage) (hphase : (s.phase g).isOver = false) :
    g < c.numGroups := by
  by_contra hg
  have hnone : s.phase g = .exited := by
    simp [phase, h.groups_size, hg]
  rw [hnone] at hphase
  contradiction

/-- A group that runs its lanes holds their work, and has not counted them yet. -/
theorem Live.executing (hc : c.Valid) (h : Live c s stage l) (hcoherent : Coherent c s stage)
    {pending : List (UInt32 × Work)} {executed : LaneMask}
    (hphase : s.phase g = .execute pending executed) :
    g < c.numGroups ∧ l.left g = pending.map Prod.snd ∧ Fresh pending executed := by
  have hg := hcoherent.lt_numGroups (by rw [hphase]; rfl)
  have hplace : s.place c g = .execute pending executed := place_of_phase hphase (by simp)
  have hallows := hcoherent.allows g hg
  have hholding := (h.held _ (LaunchConfig.blockOf_lt hg)).holding g
    ((LaunchConfig.mem_party_some hc.groups_pos).2 rfl)
  unfold Allows at hallows
  rw [hplace] at hallows hholding
  generalize stage (c.blockOf g) = σ at hallows hholding
  cases hallows with
  | executeNarrow | executeWide =>
      obtain ⟨⟨hleft, -, hfresh, -⟩, -⟩ := hholding
      exact ⟨hg, hleft, hfresh⟩
  | gone => contradiction

theorem Live.left_of_work (hc : c.Valid) (h : Live c s stage l) (hcoherent : Coherent c s stage)
    {w : Work} (hwork : (s.phase g).work? = some w) : g < c.numGroups ∧ w ∈ l.left g := by
  obtain ⟨lane, pending, executed, hphase⟩ : ∃ lane pending executed,
      s.phase g = .execute ((lane, w) :: pending) executed := by
    unfold Phase.work? at hwork
    split at hwork
    · rename_i hphase
      obtain rfl := Option.some.inj hwork
      exact ⟨_, _, _, hphase⟩
    · contradiction
  obtain ⟨hg, hleft, -⟩ := h.executing hc hcoherent hphase
  rw [hleft]
  exact ⟨hg, List.mem_cons_self ..⟩

/-- When an invocation of a node starts, the nodes in front of it are done. -/
theorem Live.done_of_work (hc : c.Valid) (h : Live c s stage l) (hcoherent : Coherent c s stage)
    {performed : List Work} (hperformed : performedWork c l = (performed : Multiset Work))
    {w : Work} (hwork : (s.phase g).work? = some w) {k : Nat} (hk : k < w.node.index) :
    IsDone s.graph l performed k := by
  obtain ⟨hg, hleft⟩ := h.left_of_work hc hcoherent hwork
  have hclaimed := (h.balanced.of_hand hg (List.mem_append_right _ hleft)).1
  have hremaining := h.balanced.ordered.behind k (hk.trans_le (h.balanced.index_le hclaimed))
  exact .of_reported hremaining
    (fun _ ho _ ht => h.balanced.reported_all (h.tiles k).pos hremaining ho ht) hperformed

theorem asksAt_cases (hj : j ∈ asksAt s g) :
    s.phase g = .init ∨ ∃ node n, s.phase g = .report node n := by
  by_contra hneither
  obtain ⟨hinit, hreport⟩ := not_or.1 hneither
  rw [asksAt_eq_nil hinit fun node n hphase => hreport ⟨node, n, hphase⟩] at hj
  contradiction

/-- When the count of a node is asked for, what has been performed belongs to nodes in
front of it, no work is under way, and the nodes in front of it are done. -/
structure InTime (c : LaunchConfig) (s : LaunchState η) (graph : TaskGraph η) (l l' : Ledger)
    (j : Nat) : Prop where
  earlier : ∀ w ∈ performedWork c l, w.node.index < j
  idle : ∀ g, (s.phase g).work? = none
  remaining : ∀ k < j, graph.remaining k = 0
  reported : ∀ k < j, ∀ o < graph.total k, ∀ t < graph.threads k,
    (graph.pickup k).unit o t ∈ l'.reported

theorem Live.inTime (hc : c.Valid) (h : Live c s stage l) (hcoherent : Coherent c s stage)
    (hlog : s.graph.Asked log) (hj : j ∈ asksAt s g) :
    InTime c s (LaunchState.step c d g s).graph l (nextLedger c d s g l) j := by
  obtain ⟨hasked, hcursor⟩ := h.asked_step (d := d) hc hcoherent hlog g
  have hnext := h.step (d := d) hc hcoherent g
  have hremaining : ∀ k < j, (LaunchState.step c d g s).graph.remaining k = 0 := fun k hk =>
    hasked.remaining_eq_zero hnext.balanced.ordered (List.mem_append_right _ hj) hk
  refine ⟨fun w hw => ?_, fun g' => ?_, hremaining, fun k hk o ho t ht => ?_⟩
  · have hclaimed := Multiset.mem_of_le (h.performedWork_le hc) hw
    exact (h.balanced.index_le hclaimed).trans_lt (hcursor j hj)
  · -- The report leaves in all hands what is in them, but nothing remains of its node.
    by_contra hwork
    obtain ⟨w, hwork⟩ := Option.ne_none_iff_exists'.1 hwork
    obtain ⟨hg', hleft⟩ := h.left_of_work hc hcoherent hwork
    have hsame : (nextLedger c d s g l).left = l.left := by
      rcases asksAt_cases hj with hinit | ⟨node, n, hphase⟩
      · exact absurd hinit (h.begun g)
      · rw [nextLedger_report hphase]
        split <;> rfl
    have hclaimed := (h.balanced.of_hand hg' (List.mem_append_right _ hleft)).1
    have hindex := (h.balanced.index_le hclaimed).trans_lt (hcursor j hj)
    rw [← hsame] at hleft
    exact hnext.balanced.remaining_of_left hg' hleft (hremaining _ hindex)
  · exact hnext.balanced.reported_all (hnext.tiles k).pos (hremaining k hk) ho ht

theorem Quiet.inTime (hc : c.Valid) (h : Quiet c s stage l) (hcoherent : Coherent c s stage)
    (hj : j ∈ asksAt s g) :
    InTime c s (LaunchState.step c d g s).graph l (nextLedger c d s g l) j := by
  have hidle : ∀ g, (s.phase g).work? = none := fun g =>
    Phase.work?_eq_none (h.not_isPosting hcoherent g)
  have hearlier : ∀ w ∈ performedWork c l, w.node.index < j := by
    intro w hw
    rw [h.ledger, performedWork_empty] at hw
    exact absurd hw (Multiset.notMem_zero w)
  have hphase : s.phase g = .init := by
    by_contra hphase
    rw [h.asksAt_eq_nil hcoherent hphase] at hj
    contradiction
  rcases h.begin (d := d) hc hcoherent hphase with
    ⟨hlive, trace, hinit⟩ | ⟨-, -, fault, trace, hinit⟩
  · have hasks : asksAt s g = s.graph.rewound.askedFrom s.device.shared 0 := by
      simp only [asksAt, hphase]
    have hremaining := fun k (hk : k < j) =>
      (TaskGraph.Asked.of_begun hinit).remaining_eq_zero hlive.balanced.ordered (hasks ▸ hj) hk
    exact ⟨hearlier, hidle, hremaining, fun k hk _ ho _ ht =>
      hlive.balanced.reported_all (hlive.tiles k).pos (hremaining k hk) ho ht⟩
  · -- Without a run there is nothing to do in any node.
    have hgraph : (LaunchState.step c d g s).graph = s.graph.rewound := by
      rcases TaskGraph.init_cases s.graph s.device.shared s.trace with
        ⟨_, _, heq, -⟩ | ⟨_, _, _, heq, -⟩ <;> rw [hinit] at heq
      · exact absurd heq (by simp)
      · exact (Prod.mk.inj (Prod.mk.inj heq).2).1
    rw [hgraph]
    refine ⟨hearlier, hidle, fun k _ => TaskGraph.remaining_rewound _ k, fun k _ o ho => ?_⟩
    rw [TaskGraph.total_rewound] at ho
    exact absurd ho (Nat.not_lt_zero o)

theorem Logged.inTime (hc : c.Valid) (h : Logged c s stage l log) (hcoherent : Coherent c s stage)
    (hj : j ∈ asksAt s g) :
    InTime c s (LaunchState.step c d g s).graph l (nextLedger c d s g l) j := by
  cases h with
  | waits h | failed h => exact h.inTime hc hcoherent hj
  | runs h hasked => exact h.inTime hc hcoherent hasked hj

end LaunchState
end Lockstep
