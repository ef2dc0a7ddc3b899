import Lockstep.TaskGraph
import Lockstep.Proofs.Lane.Deal
import Mathlib.Data.List.Basic
import Mathlib.Tactic.Linarith

/-!
# The counters of a task graph

The counters of each node as functions of its index, and what the operations of the
graph do to them.  Claims move one claim counter, reports lower one remaining count,
and a search for work changes nothing but the node that it makes current.
-/

namespace Lockstep
namespace TaskGraph

variable {η : Type}

/-- The node at an index as a block would pick it up. -/
def pickup (g : TaskGraph η) (i : Nat) : Pickup :=
  match g.nodes[i]? with
  | some node => ⟨⟨UInt32.ofNat i⟩, node.spec.func, node.total, node.spec.threadsPerInvocation⟩
  | none => ⟨⟨UInt32.ofNat i⟩, ⟨0⟩, 0, 1⟩

theorem pickup_node (g : TaskGraph η) (i : Nat) : (g.pickup i).node = ⟨UInt32.ofNat i⟩ := by
  unfold pickup
  split <;> rfl

@[simp] theorem pickup_node_index (g : TaskGraph η) (id : NodeId) :
    (g.pickup id.index).node = id := by
  rw [pickup_node, NodeId.index, UInt32.ofNat_toNat]

def total (g : TaskGraph η) (i : Nat) : Nat := (g.pickup i).total.toNat

def threads (g : TaskGraph η) (i : Nat) : Nat := (g.pickup i).threads

def remaining (g : TaskGraph η) (i : Nat) : Nat :=
  match g.nodes[i]? with
  | some node => node.remaining.toNat
  | none => 0

def claimed (g : TaskGraph η) (i : Nat) : Nat :=
  match g.nodes[i]? with
  | some node => node.claimed.toNat
  | none => 0

def isCounted (g : TaskGraph η) (i : Nat) : Bool :=
  match g.nodes[i]? with
  | some node => node.spec.isDynamic && node.spec.data.hasCount
  | none => false

theorem total_lt (g : TaskGraph η) (i : Nat) : g.total i < 2 ^ 32 := UInt32.toNat_lt _

theorem total_of_getElem? {g : TaskGraph η} {i : Nat} {node : Node η}
    (h : g.nodes[i]? = some node) : g.total i = node.total.toNat := by
  rw [total, pickup, h]

theorem total_congr {g g' : TaskGraph η} {i : Nat} (h : g'.pickup i = g.pickup i) :
    g'.total i = g.total i := by
  rw [total, h, total]

theorem numNodes_le (g : TaskGraph η) : g.numNodes ≤ g.nodes.size := Nat.mod_le _ _

theorem numNodes_lt (g : TaskGraph η) : g.numNodes < 2 ^ 32 := Nat.mod_lt _ (by decide)

theorem node_eq_ok {g : TaskGraph η} {id : NodeId} {node : Node η}
    (h : g.nodes[id.index]? = some node) : g.node id = .ok node := by
  unfold TaskGraph.node
  rw [h]

theorem exists_node {g : TaskGraph η} {i : Nat} (h : i < g.nodes.size) :
    ∃ node, g.nodes[i]? = some node :=
  ⟨g.nodes[i], Array.getElem?_eq_getElem h⟩

theorem getElem?_of_node {g : TaskGraph η} {id : NodeId} {node : Node η}
    (h : g.node id = .ok node) : g.nodes[id.index]? = some node := by
  unfold TaskGraph.node at h
  split at h
  · rename_i other hother
    rw [hother, Except.ok.inj h]
  · exact absurd h (by simp)

theorem pickup_of_node {g : TaskGraph η} {id : NodeId} {node : Node η} (h : g.node id = .ok node) :
    id.index < g.nodes.size ∧
      g.pickup id.index = ⟨id, node.spec.func, node.total, node.spec.threadsPerInvocation⟩ := by
  have hget := getElem?_of_node h
  obtain ⟨hlt, _⟩ := Array.getElem?_eq_some_iff.1 hget
  refine ⟨hlt, ?_⟩
  rw [pickup, hget]
  simp [NodeId.index]

theorem size_le_of_node {g : TaskGraph η} {id : NodeId} {fault : Fault}
    (h : g.node id = .error fault) : g.nodes.size ≤ id.index := by
  by_contra hlt
  obtain ⟨node, hnode⟩ := exists_node (Nat.lt_of_not_le hlt)
  rw [node_eq_ok hnode] at h
  exact absurd h (by simp)

/-- The parts of a graph that a run never changes. -/
structure SameSpecs (g g' : TaskGraph η) : Prop where
  size : g'.nodes.size = g.nodes.size
  spec : ∀ i : Nat, (g'.nodes[i]?).map Node.spec = (g.nodes[i]?).map Node.spec

namespace SameSpecs

@[refl] theorem refl (g : TaskGraph η) : SameSpecs g g := ⟨rfl, fun _ => rfl⟩

theorem trans {g₁ g₂ g₃ : TaskGraph η} (h : SameSpecs g₁ g₂) (h' : SameSpecs g₂ g₃) :
    SameSpecs g₁ g₃ :=
  ⟨h'.size.trans h.size, fun i => (h'.spec i).trans (h.spec i)⟩

theorem of_specs {g g' : TaskGraph η} (h : g'.specs = g.specs) : SameSpecs g g' := by
  unfold TaskGraph.specs at h
  refine ⟨by simpa using congrArg List.length h, fun i => ?_⟩
  simpa using congrArg (·[i]?) h

theorem specs {g g' : TaskGraph η} (h : SameSpecs g g') : g'.specs = g.specs := by
  unfold TaskGraph.specs
  apply List.ext_getElem?
  intro i
  simpa using h.spec i

theorem exists_old {g g' : TaskGraph η} (h : SameSpecs g g') {i : Nat} {node : Node η}
    (hnode : g'.nodes[i]? = some node) : ∃ old, g.nodes[i]? = some old ∧ old.spec = node.spec := by
  have hspec := h.spec i
  rw [hnode] at hspec
  exact Option.map_eq_some_iff.1 hspec.symm

theorem numNodes {g g' : TaskGraph η} (h : SameSpecs g g') : g'.numNodes = g.numNodes := by
  simp only [TaskGraph.numNodes, h.size]

theorem threadsPerInvocation {g g' : TaskGraph η} (h : SameSpecs g g') (i : Nat) :
    (g'.pickup i).threadsPerInvocation = (g.pickup i).threadsPerInvocation := by
  have hi := h.spec i
  unfold TaskGraph.pickup
  cases h₁ : g.nodes[i]? <;> cases h₂ : g'.nodes[i]? <;> simp_all

theorem threads {g g' : TaskGraph η} (h : SameSpecs g g') (i : Nat) :
    g'.threads i = g.threads i := by
  rw [TaskGraph.threads, Pickup.threads, h.threadsPerInvocation]
  rfl

theorem func {g g' : TaskGraph η} (h : SameSpecs g g') (i : Nat) :
    (g'.pickup i).func = (g.pickup i).func := by
  have hi := h.spec i
  unfold TaskGraph.pickup
  cases h₁ : g.nodes[i]? <;> cases h₂ : g'.nodes[i]? <;> simp_all

theorem isCounted {g g' : TaskGraph η} (h : SameSpecs g g') (i : Nat) :
    g'.isCounted i = g.isCounted i := by
  have hi := h.spec i
  unfold TaskGraph.isCounted
  cases h₁ : g.nodes[i]? <;> cases h₂ : g'.nodes[i]? <;> simp_all

end SameSpecs

def put (g : TaskGraph η) (i : Nat) (node : Node η) : TaskGraph η :=
  { g with nodes := g.nodes.setIfInBounds i node }

section Put

variable {g : TaskGraph η} {i : Nat} {node old : Node η}

theorem getElem?_put (hi : g.nodes[i]? = some old) (j : Nat) :
    (g.put i node).nodes[j]? = if j = i then some node else g.nodes[j]? := by
  obtain ⟨hlt, _⟩ := Array.getElem?_eq_some_iff.1 hi
  by_cases hj : j = i
  · subst hj
    simp [put, hlt]
  · simp [put, hj, Ne.symm hj]

theorem SameSpecs.put (hi : g.nodes[i]? = some old) (hspec : node.spec = old.spec) :
    SameSpecs g (g.put i node) := by
  refine ⟨by simp [TaskGraph.put], fun j => ?_⟩
  rw [getElem?_put hi]
  split
  · rename_i hj
    subst hj
    simp [hi, hspec]
  · rfl

theorem pickup_put (hi : g.nodes[i]? = some old) (j : Nat) (hspec : node.spec = old.spec) :
    (g.put i node).pickup j =
      if j = i then { g.pickup i with total := node.total } else g.pickup j := by
  unfold pickup
  rw [getElem?_put hi]
  by_cases hj : j = i
  · subst hj
    simp [hi, hspec]
  · simp [hj]

theorem pickup_put_of_total_eq (hi : g.nodes[i]? = some old) (j : Nat)
    (hspec : node.spec = old.spec) (htotal : node.total = old.total) :
    (g.put i node).pickup j = g.pickup j := by
  rw [pickup_put hi j hspec]
  split
  · rename_i hj
    simp [hj, pickup, hi, htotal]
  · rfl

theorem remaining_put (hi : g.nodes[i]? = some old) (j : Nat) :
    (g.put i node).remaining j = if j = i then node.remaining.toNat else g.remaining j := by
  unfold remaining
  rw [getElem?_put hi]
  by_cases hj : j = i <;> simp [hj]

theorem claimed_put (hi : g.nodes[i]? = some old) (j : Nat) :
    (g.put i node).claimed j = if j = i then node.claimed.toNat else g.claimed j := by
  unfold claimed
  rw [getElem?_put hi]
  by_cases hj : j = i <;> simp [hj]

end Put

end TaskGraph
end Lockstep
