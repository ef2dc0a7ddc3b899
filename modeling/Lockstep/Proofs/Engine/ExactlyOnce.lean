import Lockstep.Proofs.Engine.Accepted

/-!
# Runs perform every invocation once

Along every schedule of an accepted engine, no thread of an invocation runs twice, and
when all groups have exited each has run once.
-/

namespace Lockstep
namespace Engine

open LaunchState

variable {η : Type} {e : Engine η} {s₀ : LaunchState η}

namespace Reached

variable {c : LaunchConfig} {d : Dispatcher η} {graph : TaskGraph η} {schedule : List Nat}
  {stage : Nat → Stage} {l : Ledger}

theorem performed_le (h : Reached c d graph schedule s₀ stage l) :
    history c d schedule s₀ = [] ∨ Balanced c (follow c d schedule s₀).graph l ∧
      (history c d schedule s₀ : Multiset Work) ≤ claimedWork c l := by
  rcases h.onCourse with hquiet | hlive
  · apply Or.inl
    rw [← Multiset.coe_eq_zero, ← h.performed, hquiet.ledger, performedWork_empty]
  · apply Or.inr
    rw [← h.performed]
    exact ⟨hlive.balanced, hlive.performedWork_le h.valid⟩

theorem nodup_triples (h : Reached c d graph schedule s₀ stage l) :
    ((history c d schedule s₀).map Work.triple).Nodup := by
  rcases h.performed_le with hnone | ⟨hbalanced, hle⟩
  · rw [hnone]
    exact List.nodup_nil
  · have hnodup := Multiset.coe_nodup.1 (Multiset.nodup_of_le hle hbalanced.nodup)
    apply hnodup.map_on
    intro w hw w' hw' htriple
    exact hbalanced.triple_inj (Multiset.mem_of_le hle hw) (Multiset.mem_of_le hle hw') htriple

theorem exists_node (h : Reached c d graph schedule s₀ stage l) {w : Work}
    (hw : w ∈ history c d schedule s₀) :
    ∃ node, graph.node w.node = .ok node ∧ node.spec.func = w.func := by
  rcases h.performed_le with hnone | ⟨hbalanced, hle⟩
  · rw [hnone] at hw
    contradiction
  obtain ⟨hi, -, -, hfunc⟩ := hbalanced.mem_claimedWork.1 (Multiset.mem_of_le hle hw)
  rw [h.specs.numNodes] at hi
  obtain ⟨node, hnode⟩ := TaskGraph.exists_node (hi.trans_le graph.numNodes_le)
  refine ⟨node, TaskGraph.node_eq_ok hnode, ?_⟩
  rw [hfunc, h.specs.func, TaskGraph.pickup, hnode]

theorem mem_triples (h : Reached c d graph schedule s₀ stage l)
    (hexited : ∀ g < c.numGroups, (follow c d schedule s₀).phase g = .exited)
    (htiles : ∀ i, 0 < graph.threads i) (k : NodeId) (o t : UInt32) :
    (k, o, t) ∈ (history c d schedule s₀).map Work.triple ↔
      o.toNat < (follow c d schedule s₀).graph.total k.index ∧ t.toNat < graph.threads k.index := by
  obtain ⟨hlive, hdone⟩ := h.onCourse.finished h.valid h.coherent hexited
  have hthreads := h.specs.threads k.index
  have hperformed := h.performed
  generalize follow c d schedule s₀ = s at hlive hdone hthreads ⊢
  constructor
  · intro hmem
    obtain ⟨w, hw, htriple⟩ := List.mem_map.1 hmem
    rw [← Multiset.mem_coe, ← hperformed] at hw
    have hclaimed := Multiset.mem_of_le (hlive.performedWork_le h.valid) hw
    obtain ⟨-, ho, ht, -⟩ := hlive.balanced.mem_claimedWork.1 hclaimed
    obtain ⟨rfl, rfl, rfl⟩ : w.node = k ∧ w.invocationOffset = o ∧ w.threadInInvocation = t := by
      simpa [Work.triple] using htriple
    exact ⟨ho.trans_le (Nat.min_le_right _ _), hthreads ▸ ht⟩
  · rintro ⟨ho, ht⟩
    have hremaining : s.graph.remaining k.index = 0 := by
      rcases Nat.lt_or_ge k.index s.graph.cursor.toNat with hlt | hge
      · exact hlive.balanced.ordered.behind _ hlt
      · exact (hlive.balanced.ordered.front _ (.inr (hdone.trans hge))).2.1
    have hreported :=
      hlive.balanced.reported_all (hthreads ▸ htiles _) hremaining ho (hthreads ▸ ht)
    refine List.mem_map.2 ⟨(s.graph.pickup k.index).unit o.toNat t.toNat, ?_, by
      simp [Work.triple, Pickup.unit]⟩
    rw [← Multiset.mem_coe, ← hperformed]
    exact Multiset.mem_of_le (reported_le_performedWork c l) hreported

end Reached

/-- Along every schedule of a run no thread of an invocation is performed twice, and what is
performed belongs to a node of the graph, whose function the dispatcher has.  When all
groups have exited, every node has its count and exactly the threads of its invocations
have been performed. -/
theorem runs_exactly_once (he : e.IsAccepted) (hs₀ : e.launch? = .ok s₀) (schedule : List Nat) :
    let c := e.config.launch
    let s := follow c e.dispatcher schedule s₀
    let performed := history c e.dispatcher schedule s₀
    (performed.map Work.triple).Nodup ∧
    (∀ w ∈ performed, ∃ node invocation, e.graph.node w.node = .ok node ∧
      node.spec.func = w.func ∧ e.dispatcher.get? w.func = some invocation) ∧
    ((∀ g < c.numGroups, s.phase g = .exited) →
      (∀ k < s.graph.numNodes, s.graph.IsResolved k) ∧
      ∀ k o t, (k, o, t) ∈ performed.map Work.triple ↔
        o.toNat < s.graph.total k.index ∧ t.toNat < e.graph.threads k.index) := by
  intro c s performed
  obtain ⟨stage, h⟩ := he.reached hs₀ schedule
  refine ⟨h.nodup_triples, fun w hw => ?_, fun hexited => ⟨fun k hk => ?_, ?_⟩⟩
  · obtain ⟨node, hnode, hfunc⟩ := h.exists_node hw
    obtain ⟨invocation, hinvocation⟩ := he.registered hnode
    exact ⟨node, invocation, hnode, hfunc, hfunc ▸ hinvocation⟩
  · obtain ⟨hlive, hdone⟩ := h.onCourse.finished h.valid h.coherent hexited
    exact hlive.resolved k (hk.le.trans hdone) hk
  · exact h.mem_triples hexited fun i => (he.tiles i).pos

theorem runs_exactly_once_sample :
    let performed := history Sample.config.launch Sample.dispatcher Sample.schedule Sample.launch
    (performed.map Work.triple).Nodup ∧ (⟨0⟩, 1, 0) ∈ performed.map Work.triple := by
  have h := runs_exactly_once Sample.isAccepted_engine Sample.launch?_engine Sample.schedule
  refine ⟨h.1, ((h.2.2 ?_).2 ⟨0⟩ 1 0).2 ?_⟩
  · decide +kernel
  · decide +kernel

end Engine
end Lockstep
