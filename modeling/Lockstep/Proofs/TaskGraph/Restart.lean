import Lockstep.Proofs.TaskGraph.Progress
import Mathlib.Data.List.Forall2

/-!
# Runs after runs

The start of a run rewrites all that an earlier run has left in a graph.  Nothing that
comes after it tells two graphs apart which have the same nodes, as long as the counts
that are asked for come out the same.
-/

namespace Lockstep

variable {η : Type}

/-- Whether the accessors of all dynamic nodes count the same in two states. -/
def SameCounts (specs : List (NodeSpec η)) (shared shared' : Shared η) : Prop :=
  ∀ spec ∈ specs, spec.isDynamic = true →
    spec.data.dynamicCount shared = spec.data.dynamicCount shared'

/-- The same call, made in two states in which the counts come out the same.  Each may
write to a trace of its own. -/
inductive GraphCall.Matches (specs : List (NodeSpec η)) : GraphCall η → GraphCall η → Prop
  | claim (id : NodeId) (batch : UInt32) : Matches specs (.claim id batch) (.claim id batch)
  | report {shared shared' : Shared η} (counts : SameCounts specs shared shared')
      (trace trace' : DeviceTrace) (id : NodeId) (finished : UInt32)
      (origin origin' : TraceOrigin) :
      Matches specs (.report shared trace id finished origin)
        (.report shared' trace' id finished origin')

variable {shared shared' : Shared η}

theorem NodeSpec.resolve_congr {spec : NodeSpec η} (id : NodeId)
    (h : spec.isDynamic = true →
      spec.data.dynamicCount shared = spec.data.dynamicCount shared') :
    spec.resolve id shared = spec.resolve id shared' := by
  unfold NodeSpec.resolve
  by_cases hdynamic : spec.isDynamic = true
  · rw [if_pos hdynamic, if_pos hdynamic, h hdynamic]
  · rw [if_neg hdynamic, if_neg hdynamic]

namespace TaskGraph

variable {g g' : TaskGraph η}

theorem scan_congr (stop : Nat) {nodes : List (Node η)} (index : Nat)
    (h : SameCounts (nodes.map Node.spec) shared shared') :
    scan shared stop index nodes = scan shared' stop index nodes := by
  induction nodes generalizing index with
  | nil => rfl
  | cons node rest ih =>
      have hnode : node.spec.resolve ⟨UInt32.ofNat index⟩ shared =
          node.spec.resolve ⟨UInt32.ofNat index⟩ shared' := by
        apply NodeSpec.resolve_congr
        exact h node.spec (List.mem_cons_self ..)
      have hrest : scan shared stop (index + 1) rest = scan shared' stop (index + 1) rest := by
        apply ih
        exact fun spec hspec => h spec (List.mem_cons_of_mem _ hspec)
      simp only [scan, hnode, hrest]

/-- A search depends on the nodes and on the counts.  Where it faults it leaves the cursor,
and that is all that it leaves of other graphs with these nodes. -/
theorem advanceFrom_congr (hnodes : g.nodes = g'.nodes) (h : SameCounts g.specs shared shared')
    (trace trace' : DeviceTrace) (origin origin' : TraceOrigin) (start : Nat) :
    (g.advanceFrom shared trace origin start).1 = (g'.advanceFrom shared' trace' origin' start).1 ∧
      ((g.advanceFrom shared trace origin start).1 = .ok () ∨ g.cursor = g'.cursor →
        (g.advanceFrom shared trace origin start).2.1 =
          (g'.advanceFrom shared' trace' origin' start).2.1) := by
  have hscan : scan shared g.numNodes start (g.nodes.toList.drop start) =
      scan shared' g'.numNodes start (g'.nodes.toList.drop start) := by
    rw [TaskGraph.numNodes, TaskGraph.numNodes, ← hnodes]
    apply scan_congr
    intro spec hspec
    apply h spec
    rw [List.map_drop] at hspec
    exact List.mem_of_mem_drop hspec
  unfold advanceFrom
  rw [← hscan, ← hnodes, show g'.numNodes = g.numNodes by rw [numNodes, numNodes, hnodes]]
  rcases scan shared g.numNodes start (g.nodes.toList.drop start) with ⟨fault | _ | found, tail⟩
  · refine ⟨rfl, fun hcursor => ?_⟩
    rcases hcursor with hok | hcursor
    · contradiction
    · exact congrArg (TaskGraph.mk _) hcursor
  · exact ⟨rfl, fun _ => rfl⟩
  · exact ⟨rfl, fun _ => rfl⟩

theorem report_congr (h : SameCounts g.specs shared shared') (trace trace' : DeviceTrace)
    (id : NodeId) (finished : UInt32) (origin origin' : TraceOrigin) :
    (g.report shared trace id finished origin).1 = (g.report shared' trace' id finished origin').1 ∧
      (g.report shared trace id finished origin).2.1 =
        (g.report shared' trace' id finished origin').2.1 := by
  by_cases hfinished : finished = 0
  · rw [report, report, if_pos hfinished, if_pos hfinished]
    exact ⟨rfl, rfl⟩
  cases hnode : g.node id with
  | error fault =>
      rw [report, report, if_neg hfinished, if_neg hfinished, hnode]
      exact ⟨rfl, rfl⟩
  | ok node =>
      simp only [report, if_neg hfinished, hnode]
      split
      · exact ⟨rfl, rfl⟩
      split
      · exact ⟨rfl, rfl⟩
      -- The report retires the node, so both graphs look for work from the same place.
      have hspecs : SameSpecs g (g.put id.index { node with remaining := node.remaining - finished })
        := SameSpecs.put (getElem?_of_node hnode) rfl
      obtain ⟨hresult, hgraph⟩ := advanceFrom_congr
        (g := g.put id.index { node with remaining := node.remaining - finished }) rfl
        (hspecs.specs ▸ h) (trace.record .nodeFinish node.spec.func node.total id origin)
        (trace'.record .nodeFinish node.spec.func node.total id origin') origin origin'
        (id.index + 1)
      exact ⟨congrArg (Except.map fun _ => true) hresult, hgraph (.inr rfl)⟩

theorem perform_congr {call call' : GraphCall η} (h : GraphCall.Matches g.specs call call') :
    g.perform call = g.perform call' := by
  cases h with
  | claim id batch => rfl
  | report counts trace trace' id finished origin origin' =>
      obtain ⟨hresult, hgraph⟩ := report_congr counts trace trace' id finished origin origin'
      exact Prod.ext (congrArg (Except.map GraphAnswer.retired) hresult) hgraph

theorem run_congr {specs : List (NodeSpec η)} {calls calls' : List (GraphCall η)}
    (hspecs : g.specs = specs) (h : List.Forall₂ (GraphCall.Matches specs) calls calls') :
    g.answers calls = g.answers calls' ∧ g.after calls = g.after calls' := by
  induction h generalizing g with
  | nil => exact ⟨rfl, rfl⟩
  | @cons call call' calls calls' hcall _ ih =>
      have hperform : g.perform call = g.perform call' := by
        apply perform_congr
        rwa [hspecs]
      obtain ⟨hanswers, hafter⟩ := ih ((g.sameSpecs_perform call).specs.trans hspecs)
      rw [answers, answers, hperform] at hanswers
      rw [hperform] at hafter
      refine ⟨?_, ?_⟩
      · rw [answers, answers, exchanges, exchanges, List.map_cons, List.map_cons, hperform,
          hanswers]
      · rw [after, after, List.foldl_cons, List.foldl_cons, hperform]
        exact hafter

/-! ## Starting again -/

theorem sameSpecs_use (g : TaskGraph η) (use : GraphUse η) : SameSpecs g (g.use use) := by
  cases use with
  | init shared trace => exact sameSpecs_init rfl
  | call call => exact g.sameSpecs_perform call

theorem sameSpecs_used (g : TaskGraph η) (uses : List (GraphUse η)) :
    SameSpecs g (g.used uses) := by
  induction uses generalizing g with
  | nil => exact .refl g
  | cons use uses ih => exact (g.sameSpecs_use use).trans (ih (g.use use))

theorem nodes_rewound (g : TaskGraph η) :
    g.rewound.nodes = (g.specs.map Node.idle).toArray := by
  apply Array.toList_inj.1
  simp [rewound, specs, Function.comp_def, Node.rewound]

theorem SameSpecs.nodes_rewound (h : SameSpecs g g') : g.rewound.nodes = g'.rewound.nodes := by
  rw [TaskGraph.nodes_rewound, TaskGraph.nodes_rewound, h.specs]

/-- The start of a run erases what came before it.  Whatever was done with two copies of a
graph, faults included, a run starts on both of them or on neither.  Once it has started
they are equal, and all later calls find and leave them so. -/
theorem init_erases (g : TaskGraph η) (before before' : List (GraphUse η))
    (trace trace' : DeviceTrace) (h : SameCounts g.specs shared shared') :
    let started := (g.used before).init shared trace
    let started' := (g.used before').init shared' trace'
    started.1 = started'.1 ∧
      (started.1 = .ok () → started.2.1 = started'.2.1 ∧
        ∀ calls calls', List.Forall₂ (GraphCall.Matches g.specs) calls calls' →
          started.2.1.answers calls = started'.2.1.answers calls' ∧
            started.2.1.after calls = started'.2.1.after calls') := by
  have hbefore := (g.sameSpecs_used before).trans (g.used before).sameSpecs_rewound
  have hnodes : (g.used before).rewound.nodes = (g.used before').rewound.nodes :=
    (g.sameSpecs_used before).nodes_rewound.symm.trans (g.sameSpecs_used before').nodes_rewound
  intro started started'
  obtain ⟨hresult, hgraph⟩ := advanceFrom_congr hnodes (hbefore.specs ▸ h) trace.reset trace'.reset
    .first .first 0
  refine ⟨hresult, fun hok => ?_⟩
  have hsame : started.2.1 = started'.2.1 := hgraph (.inl hok)
  refine ⟨hsame, fun calls calls' hcalls => ?_⟩
  have hspecs : SameSpecs g started.2.1 := (g.sameSpecs_used before).trans (sameSpecs_init rfl)
  rw [← hsame]
  exact run_congr hspecs.specs hcalls

namespace Restarting

/-- Counts the last digit of the number in the host state; from a hundred on it counts
nothing that is a count. -/
def digit : NodeSpec Int :=
  .dynamic ⟨0⟩ (.withCount .empty fun shared => if shared.host < 100 then shared.host % 10 else -1)

def graph : TaskGraph Int := .ofSpecs [digit, .fixed ⟨1⟩ 3, digit]

def state (host : Int) : Shared Int :=
  ⟨⟨.default, .builtins 2, #[], #[], .empty 0, .empty 0⟩, host⟩

def trace : DeviceTrace := .ofConfig ⟨false, 0⟩

/-- The first node is reported past its end, and its counter has wrapped. -/
def overReported : List (GraphUse Int) :=
  [.init (state 5) trace, .call (.claim ⟨0⟩ 7), .call (.report (state 5) trace ⟨0⟩ 6 .first)]

/-- A run stops at the last node, and the next one cannot start. -/
def badCount : List (GraphUse Int) :=
  [.init (state 20) trace, .call (.claim ⟨1⟩ 3),
    .call (.report (state 100) trace ⟨1⟩ 3 .first), .init (state 100) trace]

def calls (host : Int) : List (GraphCall Int) :=
  [.claim ⟨0⟩ 4, .report (state host) trace ⟨0⟩ 2 .first, .claim ⟨1⟩ 2,
    .report (state host) trace ⟨1⟩ 4 .first, .claim ⟨3⟩ 1]

theorem sameCounts : SameCounts graph.specs (state 2) (state 42) := by
  intro spec hspec
  simp only [graph, specs, ofSpecs, List.map_cons, List.map_nil, List.mem_cons,
    List.not_mem_nil, or_false, Node.idle] at hspec
  rcases hspec with rfl | rfl | rfl <;> decide +kernel

theorem matches_calls :
    List.Forall₂ (GraphCall.Matches graph.specs) (calls 2) (calls 42) :=
  .cons (.claim ..) (.cons (.report sameCounts ..) (.cons (.claim ..)
    (.cons (.report sameCounts ..) (.cons (.claim ..) .nil))))

end Restarting

open Restarting in
theorem init_erases_sample :
    (graph.used overReported).cursor ≠ (graph.used badCount).cursor ∧
    ((graph.used badCount).init (state 42) trace).1 = .ok () ∧
    ((graph.used badCount).init (state 42) trace).2.1.answers (calls 42) =
      [.ok (.base 0), .ok (.retired true), .ok (.base 0), .error (.overReported 1 4 3),
        .error (.indexOutOfBounds 3 3)] := by
  obtain ⟨hresult, hequal⟩ := init_erases graph overReported badCount trace trace sameCounts
  have hstarted : ((graph.used overReported).init (state 2) trace).1 = .ok () := by
    decide +kernel
  obtain ⟨-, hlater⟩ := hequal hstarted
  refine ⟨by decide +kernel, hresult.symm.trans hstarted, ?_⟩
  rw [← (hlater (calls 2) (calls 42) matches_calls).1]
  decide +kernel

end TaskGraph
end Lockstep
