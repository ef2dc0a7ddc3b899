import Lockstep.Node
import Lockstep.Trace.Device

/-!
# Task graph

A sorted list of nodes and a cursor that names the node being worked on.  Each
node counts the offsets claimed, the invocations not yet reported and their total.
The report that brings the second to zero retires the node: it resolves the counts
of the nodes that follow, passes over empty ones and moves the cursor to the next
node with work.
-/

namespace Lockstep

structure Node (η : Type) where
  spec : NodeSpec η
  /-- The next offset to give out.  It is wider than offsets are, so claims past
  the last offset do not start over. -/
  claimed : UInt64
  remaining : UInt32
  total : UInt32

namespace Node

variable {η : Type}

def idle (spec : NodeSpec η) : Node η := ⟨spec, 0, 0, 0⟩

def rewound (n : Node η) : Node η := idle n.spec

def started (n : Node η) (count : UInt32) : Node η := ⟨n.spec, 0, count, count⟩

def skipped (n : Node η) : Node η := { n with total := 0 }

end Node

structure TaskGraph (η : Type) where
  nodes : Array (Node η)
  cursor : UInt32

structure NodeStart where
  index : Nat
  func : FuncId
  count : UInt32

namespace TaskGraph

variable {η : Type}

def ofSpecs (specs : List (NodeSpec η)) : TaskGraph η := ⟨(specs.map Node.idle).toArray, 0⟩

/-- The number of nodes, as far as a 32-bit word counts them. -/
def numNodes (g : TaskGraph η) : Nat := g.nodes.size % Word.size32

def specs (g : TaskGraph η) : List (NodeSpec η) := g.nodes.toList.map Node.spec

def node (g : TaskGraph η) (id : NodeId) : Except Fault (Node η) :=
  match g.nodes[id.index]? with
  | some node => .ok node
  | none => .error (.indexOutOfBounds g.nodes.size id.index)

def isFinished (g : TaskGraph η) : Bool := decide (g.numNodes ≤ g.cursor.toNat)

/-- Looks for work in `nodes`, the first of which has this index, in front of the
index `stop`.  Answers the nodes as the search leaves them, and the node found if
there is one. -/
def scan (shared : Shared η) (stop : Nat) : (index : Nat) → (nodes : List (Node η)) →
    Except Fault (Option NodeStart) × List (Node η)
  | _, [] => (.ok none, [])
  | index, node :: rest =>
      if stop ≤ index then (.ok none, node :: rest)
      else
        match node.spec.resolve ⟨UInt32.ofNat index⟩ shared with
        | .error fault => (.error fault, node :: rest)
        | .ok count =>
            if count = 0 then
              let (found, rest) := scan shared stop (index + 1) rest
              (found, node.skipped :: rest)
            else (.ok (some ⟨index, node.spec.func, count⟩), node.started count :: rest)

/-- Moves the cursor to the first node with work from `start` on, or past the
last node.  A fault leaves the cursor where it was. -/
def advanceFrom (g : TaskGraph η) (shared : Shared η) (trace : DeviceTrace)
    (origin : TraceOrigin) (start : Nat) : Except Fault Unit × TaskGraph η × DeviceTrace :=
  let (found, tail) := scan shared g.numNodes start (g.nodes.toList.drop start)
  let nodes := (g.nodes.toList.take start ++ tail).toArray
  match found with
  | .error fault => (.error fault, { g with nodes }, trace)
  | .ok none => (.ok (), ⟨nodes, UInt32.ofNat (max start g.numNodes)⟩, trace)
  | .ok (some s) =>
      let id := UInt32.ofNat s.index
      (.ok (), ⟨nodes, id⟩, trace.record .nodeStart s.func s.count ⟨id⟩ origin)

/-- Starts a run: rewinds the trace and all counters, and looks for work. -/
def init (g : TaskGraph η) (shared : Shared η) (trace : DeviceTrace) :
    Except Fault Unit × TaskGraph η × DeviceTrace :=
  { g with nodes := g.nodes.map Node.rewound }.advanceFrom shared trace.reset .first 0

/-- Takes `batch` offsets of a node and answers the first of them.  Offsets past
the 32-bit words all read as the largest word. -/
def claim (g : TaskGraph η) (id : NodeId) (batch : UInt32) :
    Except Fault (UInt32 × TaskGraph η) := do
  let node ← g.node id
  let base :=
    if node.claimed.toNat < Word.size32 then node.claimed.toUInt32
    else UInt32.ofNat (Word.size32 - 1)
  let node := { node with claimed := node.claimed + batch.toUInt64 }
  return (base, { g with nodes := g.nodes.setIfInBounds id.index node })

/-- Takes note of finished invocations, and answers whether they retired the
node.  Reporting more than remained is a fault. -/
def report (g : TaskGraph η) (shared : Shared η) (trace : DeviceTrace) (id : NodeId)
    (finished : UInt32) (origin : TraceOrigin) :
    Except Fault Bool × TaskGraph η × DeviceTrace :=
  if finished = 0 then (.ok false, g, trace)
  else
    match g.node id with
    | .error fault => (.error fault, g, trace)
    | .ok node =>
        let left := node.remaining
        let node := { node with remaining := left - finished }
        let g := { g with nodes := g.nodes.setIfInBounds id.index node }
        if left < finished then (.error (.overReported id.raw finished left), g, trace)
        else if left ≠ finished then (.ok false, g, trace)
        else
          let trace := trace.record .nodeFinish node.spec.func node.total id origin
          let (result, g, trace) := g.advanceFrom shared trace origin (id.index + 1)
          (result.map fun _ => true, g, trace)

end TaskGraph
end Lockstep
