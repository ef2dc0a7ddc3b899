import Lockstep.TaskGraph

/-!
# Histories of a task graph

Claims and reports in any order, each with the answer that the graph gives to it, and
runs begun among them.  A call that faults leaves behind what it had done by then, and
the history goes on.
-/

namespace Lockstep

inductive GraphCall (η : Type) where
  | claim (id : NodeId) (batch : UInt32)
  | report (shared : Shared η) (trace : DeviceTrace) (id : NodeId) (finished : UInt32)
      (origin : TraceOrigin)

inductive GraphAnswer where
  | base (base : UInt32)
  | retired (retired : Bool)
deriving DecidableEq

structure GraphExchange (η : Type) where
  call : GraphCall η
  answer : Except Fault GraphAnswer

/-- An operation of a graph: the start of a run, or a call during one. -/
inductive GraphUse (η : Type) where
  | init (shared : Shared η) (trace : DeviceTrace)
  | call (call : GraphCall η)

/-- A claim with the base that it was answered. -/
structure Grant where
  base : UInt32
  batch : UInt32
deriving DecidableEq

variable {η : Type}

namespace GraphCall

/-- How much of a node a call reports. -/
def amountOf (k : Nat) : GraphCall η → Nat
  | claim .. => 0
  | report _ _ id finished _ => if id.index = k then finished.toNat else 0

/-- The size of a claim of the node. -/
def batch? (k : Nat) : GraphCall η → Option UInt32
  | claim id batch => if id.index = k then some batch else none
  | report .. => none

def batchesOf (k : Nat) (calls : List (GraphCall η)) : List UInt32 := calls.filterMap (·.batch? k)

/-- Whether the call reports invocations of a node before this one. -/
def reportsBefore (k : Nat) : GraphCall η → Bool
  | claim .. => false
  | report _ _ id finished _ => finished != 0 && decide (id.index < k)

end GraphCall

namespace GraphExchange

/-- Whether this is a report of a node which the graph says has retired it. -/
def retires (k : Nat) : GraphExchange η → Bool
  | ⟨.report _ _ id _ _, .ok (.retired true)⟩ => id.index == k
  | _ => false

def faults (e : GraphExchange η) : Bool := !e.answer.isOk

def grant? (k : Nat) : GraphExchange η → Option Grant
  | ⟨.claim id batch, .ok (.base base)⟩ => if id.index = k then some ⟨base, batch⟩ else none
  | _ => none

end GraphExchange

namespace TaskGraph

def perform (g : TaskGraph η) : GraphCall η → Except Fault GraphAnswer × TaskGraph η
  | .claim id batch =>
      match g.claim id batch with
      | .ok (base, g) => (.ok (.base base), g)
      | .error fault => (.error fault, g)
  | .report shared trace id finished origin =>
      let (result, g, _) := g.report shared trace id finished origin
      (result.map .retired, g)

def after (g : TaskGraph η) (calls : List (GraphCall η)) : TaskGraph η :=
  calls.foldl (fun g call => (g.perform call).2) g

def exchanges : TaskGraph η → (calls : List (GraphCall η)) → List (GraphExchange η)
  | _, [] => []
  | g, call :: calls => ⟨call, (g.perform call).1⟩ :: exchanges (g.perform call).2 calls

def answers (g : TaskGraph η) (calls : List (GraphCall η)) : List (Except Fault GraphAnswer) :=
  (g.exchanges calls).map GraphExchange.answer

/-- What an operation leaves behind, also where it faults. -/
def use (g : TaskGraph η) : GraphUse η → TaskGraph η
  | .init shared trace => (g.init shared trace).2.1
  | .call call => (g.perform call).2

def used (g : TaskGraph η) (uses : List (GraphUse η)) : TaskGraph η := uses.foldl use g

/-- How much of a node has been reported in a history. -/
def reportedOf (k : Nat) : (history : List (GraphExchange η)) → Nat
  | [] => 0
  | e :: history => e.call.amountOf k + reportedOf k history

/-- What the claims of a node were granted in a history. -/
def grantsOf (k : Nat) (history : List (GraphExchange η)) : List Grant :=
  history.filterMap (·.grant? k)

end TaskGraph
end Lockstep
