import Lockstep.Proofs.Engine.Accepted
import Lockstep.Proofs.Launch.Noting

/-!
# Events of the nodes

What the device trace tells of a run that all groups have left, if it had room for all
records, and what follows for the nodes of the graph.
-/

namespace Lockstep

theorem Pass.event_ne_exit {a : Pass} {m : Mark} (h : m ∈ a.marks) : m.event ≠ .blockExit := by
  rcases a with ⟨pickup, _ | _⟩
  · rw [List.mem_singleton.1 h]
    exact DeviceEvent.noConfusion
  · rcases List.mem_pair.1 h with rfl | rfl <;> exact DeviceEvent.noConfusion

/-- A block leaves once. -/
theorem Pass.filter_exit (passes : List Pass) (cursor : NodeId) :
    (passes.flatMap marks ++ [Mark.exit cursor]).filter (·.event = .blockExit) =
      [.exit cursor] := by
  have hnone : (passes.flatMap marks).filter (·.event = .blockExit) = [] := by
    apply List.filter_eq_nil_iff.2
    intro m hm
    obtain ⟨a, -, hm⟩ := List.mem_flatMap.1 hm
    simp [event_ne_exit hm]
  rw [List.filter_append, hnone]
  rfl

namespace Engine

open LaunchState

variable {η : Type} {e : Engine η} {s₀ : LaunchState η}

theorem isCalm_of_exited {c : LaunchConfig} {s : LaunchState η} {stage : Nat → Stage}
    (h : Coherent c s stage) (hexited : ∀ g < c.numGroups, s.phase g = .exited) : s.IsCalm := by
  intro g
  by_contra hgone
  have hover : s.phase g ≠ .exited := by
    intro hphase
    rw [hphase] at hgone
    exact hgone rfl
  apply hover
  by_cases hg : g < c.numGroups
  · exact hexited g hg
  · have hnone : ¬ g < s.groups.size := h.groups_size ▸ hg
    simp [phase, hnone]

namespace Sample

def tracedConfig : EngineConfig := { config with trace := ⟨true, 32⟩ }

def tracedEngine : Engine Unit :=
  ((Engine.new tracedConfig shared graph dispatcher).toOption.bind Except.toOption).get rfl

def tracedLaunch : LaunchState Unit := tracedEngine.launch?.toOption.get rfl

theorem isAccepted_tracedEngine : tracedEngine.IsAccepted :=
  ⟨shared, graph, tracedEngine, rfl, .refl _⟩

theorem launch?_tracedEngine : tracedEngine.launch? = .ok tracedLaunch := rfl

theorem exited_tracedEngine : ∀ g < tracedEngine.config.launch.numGroups,
    (follow tracedEngine.config.launch tracedEngine.dispatcher schedule tracedLaunch).phase g =
      .exited := by
  decide +kernel

theorem keepsEvents_tracedEngine : keepsEvents tracedEngine.config.launch tracedEngine.dispatcher
    schedule tracedLaunch = true := by
  decide +kernel

end Sample

/-- What the trace tells at the end of a run. -/
structure Told (c : LaunchConfig) (graph : TaskGraph η) (s : LaunchState η)
    (notes : List TraceNote) : Prop where
  shows : s.trace.Shows (.calibration :: notes)
  once : ∀ n ∈ notes, n.mark.event ≠ .calibration
  nodes : TraceNote.nodeMarks notes = s.graph.nodeMarks
  specs : graph.SameSpecs s.graph
  resolved : ∀ k < s.graph.numNodes, s.graph.IsResolved k
  blocks : ∀ b < c.numBlocks.toNat, ∃ passes : List Pass,
    TraceNote.blockMarks b notes =
      passes.flatMap Pass.marks ++ [.exit ⟨UInt32.ofNat graph.numNodes⟩] ∧
    passes.Pairwise (fun a b => a.pickup.node.index < b.pickup.node.index) ∧
    ∀ a ∈ passes, a.IsOf s.graph

theorem IsAccepted.told (he : e.IsAccepted) (hs₀ : e.launch? = .ok s₀)
    (henabled : e.trace.enabled = true) {schedule : List Nat}
    (hexited : ∀ g < e.config.launch.numGroups,
      (follow e.config.launch e.dispatcher schedule s₀).phase g = .exited)
    (hkept : keepsEvents e.config.launch e.dispatcher schedule s₀ = true) :
    ∃ notes, Told e.config.launch e.graph (follow e.config.launch e.dispatcher schedule s₀)
      notes := by
  obtain ⟨⟨n, hgroups⟩, device, rfl⟩ := launch?_eq hs₀
  have hvalid := he.valid hgroups
  have hpos : 0 < e.config.launch.numGroups := Nat.mul_pos hvalid.blocks_pos hvalid.groups_pos
  have hinitial := Coherent.initial hpos e.graph device e.trace
  have hcoherent := hinitial.follow (d := e.dispatcher) schedule
  have hspecs : e.graph.SameSpecs _ := hinitial.sameSpecs_follow (d := e.dispatcher) schedule
  have hrecord := (OnRecord.initial hvalid device henabled he.tiles).follow hvalid hinitial
    (isCalm_of_exited hcoherent hexited) hkept
  obtain ⟨hlive, notes, hholds, honce, hnodes, hblocks⟩ :=
    hrecord.finished hvalid hcoherent hexited
  have hdone := (OnCourse.finished hvalid (.inr hlive) hcoherent hexited).2
  refine ⟨notes, hholds.shows, honce, hnodes, hspecs,
    fun k hk => hlive.resolved k (hk.le.trans hdone) hk, ?_⟩
  rw [← hspecs.numNodes]
  exact hblocks

/-- When all groups of a traced run have exited and no record was dropped, the trace begins
with its only calibration, and tells of the nodes that had invocations, one after another and
of no others, that they started and finished, with their function and count.  Of each block
it tells once that it has left, at the index behind the last node. -/
theorem events_of_nodes (he : e.IsAccepted) (hs₀ : e.launch? = .ok s₀)
    (henabled : e.trace.enabled = true) (schedule : List Nat)
    (hexited : ∀ g < e.config.launch.numGroups,
      (follow e.config.launch e.dispatcher schedule s₀).phase g = .exited)
    (hkept : keepsEvents e.config.launch e.dispatcher schedule s₀ = true) :
    let c := e.config.launch
    let s := follow c e.dispatcher schedule s₀
    ∃ notes, s.trace.Shows (.calibration :: notes) ∧
      (∀ n ∈ notes, n.mark.event ≠ .calibration) ∧
      TraceNote.nodeMarks notes = s.graph.nodeMarks ∧
      e.graph.SameSpecs s.graph ∧ (∀ k < s.graph.numNodes, s.graph.IsResolved k) ∧
      ∀ b < c.numBlocks.toNat, (TraceNote.blockMarks b notes).filter (·.event = .blockExit) =
        [.exit ⟨UInt32.ofNat e.graph.numNodes⟩] := by
  intro c s
  obtain ⟨notes, h⟩ := he.told hs₀ henabled hexited hkept
  refine ⟨notes, h.shows, h.once, h.nodes, h.specs, h.resolved, fun b hb => ?_⟩
  obtain ⟨passes, hmarks, -⟩ := h.blocks b hb
  rw [hmarks]
  exact Pass.filter_exit passes _

theorem events_of_nodes_sample :
    ∃ notes, TraceNote.nodeMarks notes =
        [⟨.nodeStart, ⟨0⟩, ⟨0⟩, 2⟩, ⟨.nodeFinish, ⟨0⟩, ⟨0⟩, 2⟩, ⟨.nodeStart, ⟨1⟩, ⟨0⟩, 1⟩,
          ⟨.nodeFinish, ⟨1⟩, ⟨0⟩, 1⟩] ∧
      (TraceNote.blockMarks 1 notes).filter (·.event = .blockExit) = [.exit ⟨2⟩] := by
  obtain ⟨notes, -, -, hnodes, -, -, hblocks⟩ := events_of_nodes Sample.isAccepted_tracedEngine
    Sample.launch?_tracedEngine rfl Sample.schedule Sample.exited_tracedEngine
    Sample.keepsEvents_tracedEngine
  refine ⟨notes, ?_, hblocks 1 (by decide)⟩
  rw [hnodes]
  decide +kernel

end Engine
end Lockstep
