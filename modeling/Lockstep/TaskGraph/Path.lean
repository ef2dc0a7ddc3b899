import Lockstep.TaskGraph.History

/-!
# The way of the cursor

What the nodes count at a moment, where a search for work has to end by these counts, and the
values that the cursor takes while a history runs its course.
-/

namespace Lockstep

variable {η : Type}

/-- The number of invocations at a moment, if there is one.  The number of an accessor may be
any integer. -/
def NodeSpec.countIn (s : NodeSpec η) (shared : Shared η) : Option Int :=
  if s.isDynamic then s.data.dynamicCount shared else some s.fixedCount.toNat

/-- Whether a number of invocations was had, and is one that a node can have. -/
def IsCount (n : Option Int) : Prop := ∃ count : UInt32, n = some (count.toNat : Int)

/-- The fault over what was had in place of a count. -/
def countFault (id : NodeId) : Option Int → Fault
  | none => .missingCount id.raw
  | some n => .invalidCount id.raw n

namespace TaskGraph

def countIn (g : TaskGraph η) (shared : Shared η) (i : Nat) : Option Int :=
  g.nodes[i]?.bind (·.spec.countIn shared)

/-- Where a search for work from `start` on has to end: at the first node whose count is not
zero at this moment, or behind the last node. -/
structure Reaches (g : TaskGraph η) (shared : Shared η) (start last : Nat) : Prop where
  start_le : start ≤ last
  last_le : last ≤ g.numNodes
  empty : ∀ i, start ≤ i → i < last → g.countIn shared i = some 0
  work : last < g.numNodes → g.countIn shared last ≠ some 0

/-- The values of the cursor from now on: each report that retires a node stores a new one. -/
def cursors : TaskGraph η → (calls : List (GraphCall η)) → List Nat
  | g, [] => [g.cursor.toNat]
  | g, call :: calls =>
      let later := cursors (g.perform call).2 calls
      match (g.perform call).1 with
      | .ok (.retired true) => g.cursor.toNat :: later
      | _ => later

/-- What a call leaves of a trace that it writes to in place of its own. -/
def traceOf (g : TaskGraph η) (trace : DeviceTrace) : GraphCall η → DeviceTrace
  | .claim .. => trace
  | .report shared _ id finished origin => (g.report shared trace id finished origin).2.2

/-- What calls leave of a trace that all of them write to. -/
def traceAfter : TaskGraph η → (trace : DeviceTrace) → (calls : List (GraphCall η)) → DeviceTrace
  | _, trace, [] => trace
  | g, trace, call :: calls => traceAfter (g.perform call).2 (g.traceOf trace call) calls

end TaskGraph
end Lockstep
