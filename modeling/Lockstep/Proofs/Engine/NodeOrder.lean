import Lockstep.Proofs.Engine.Accepted

/-!
# Nodes run in order

A run works off the nodes of its graph one after another, and asks for the count of a
dynamic node when the nodes in front of it are done.
-/

namespace Lockstep
namespace Engine

open LaunchState

variable {η : Type} {e : Engine η} {s₀ : LaunchState η}

/-- When an invocation of a node starts, all nodes in front of it are done.  The count of a
dynamic node is asked for at most once, and once when all groups have exited, at a time
when only work of nodes in front of it has been performed, none is under way, and they are
all done. -/
theorem nodes_run_in_order (he : e.IsAccepted) (hs₀ : e.launch? = .ok s₀) (schedule : List Nat) :
    let c := e.config.launch
    let s := follow c e.dispatcher schedule s₀
    let l := ledger c e.dispatcher schedule s₀ .empty
    let performed := history c e.dispatcher schedule s₀
    let log := asks c e.dispatcher schedule s₀
    (∀ g w, (s.phase g).work? = some w → ∀ k < w.node.index, IsDone s.graph l performed k) ∧
    log.Nodup ∧
    ((∀ g < c.numGroups, s.phase g = .exited) → ∀ j node, j < e.graph.numNodes →
      e.graph.nodes[j]? = some node → (j ∈ log ↔ node.spec.isDynamic = true)) ∧
    ∀ g j, j ∈ asksAt s g →
      (∀ w ∈ performed, w.node.index < j) ∧ (∀ g', (s.phase g').work? = none) ∧
      ∀ k < j,
        IsDone (step c e.dispatcher g s).graph (nextLedger c e.dispatcher s g l) performed k := by
  intro c s l performed log
  obtain ⟨stage, h⟩ := he.reached hs₀ schedule
  refine ⟨fun g w hwork k hk => ?_, h.logged.nodup, fun hexited j node hj hnode => ?_,
    fun g j hj => ?_⟩
  · rcases h.onCourse with hquiet | hlive
    · rw [Phase.work?_eq_none (hquiet.not_isPosting h.coherent g)] at hwork
      contradiction
    · exact hlive.done_of_work h.valid h.coherent h.performed hwork hk
  · have hlog : log = (List.range s.graph.numNodes).filter s.graph.isCounted :=
      h.logged.eq_all h.valid h.coherent hexited
    have hnodes : s.graph.numNodes = e.graph.numNodes := h.specs.numNodes
    have hcounted : s.graph.isCounted = e.graph.isCounted := funext h.specs.isCounted
    rw [hlog, hnodes, hcounted, List.mem_filter, List.mem_range, he.isCounted hnode]
    exact and_iff_right hj
  · have hin := h.logged.inTime (d := e.dispatcher) h.valid h.coherent hj
    -- The step that asks runs no work.
    have hperformed :
        performedWork c (nextLedger c e.dispatcher s g l) = (performed : Multiset Work) := by
      have hstep := h.onCourse.performedWork_step (d := e.dispatcher) h.valid h.coherent g
      rw [hin.idle g, h.performed] at hstep
      exact hstep.trans (add_zero _)
    refine ⟨fun w hw => hin.earlier w ?_, hin.idle, fun k hk => ?_⟩
    · rw [h.performed]
      exact hw
    · exact .of_reported (hin.remaining k hk) (hin.reported k hk) hperformed

theorem nodes_run_in_order_sample :
    ∃ s performed, s = follow Sample.engine.config.launch Sample.engine.dispatcher Sample.retire
        Sample.launch ∧
      performed = history Sample.engine.config.launch Sample.engine.dispatcher Sample.retire
        Sample.launch ∧
      1 ∈ asksAt s 0 ∧ (∀ w ∈ performed, w.node.index < 1) ∧
      ∃ s' l', s' = step Sample.engine.config.launch Sample.engine.dispatcher 0 s ∧
        IsDone s'.graph l' performed 0 := by
  obtain ⟨-, -, -, hcounts⟩ := nodes_run_in_order Sample.isAccepted_engine Sample.launch?_engine
    Sample.retire
  obtain ⟨s, hs⟩ : ∃ s, s = follow Sample.engine.config.launch Sample.engine.dispatcher
    Sample.retire Sample.launch := ⟨_, rfl⟩
  have hasks : 1 ∈ asksAt s 0 := by
    rw [hs]
    decide +kernel
  rw [← hs] at hcounts
  obtain ⟨hearlier, -, hdone⟩ := hcounts 0 1 hasks
  exact ⟨s, _, hs, rfl, hasks, hearlier, _, _, rfl, hdone 0 Nat.zero_lt_one⟩

end Engine
end Lockstep
