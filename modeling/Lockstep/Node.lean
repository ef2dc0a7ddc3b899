import Lockstep.RecordText
import Lockstep.Storage

/-!
# Nodes

A node says which function to invoke, how often, and with what data.  The count
is either fixed or read from the shared state when the node's turn comes.
-/

namespace Lockstep

/-- What accessors and invocations share: the storage, and whatever the host
program keeps beside it. -/
structure Shared (η : Type) where
  storage : Storage
  host : η

inductive Payload where
  | word (n : UInt64)
  | text (s : String)
deriving DecidableEq

structure NodeData (η : Type) where
  payload : Option Payload
  /-- Counts the invocations of a dynamic node.  A number that is no 32-bit count
  ends the run. -/
  count : Option (Shared η → Int)

namespace NodeData

variable {η : Type}

def empty : NodeData η := ⟨none, none⟩

def withPayload (payload : Payload) : NodeData η := ⟨some payload, none⟩

def withCount (d : NodeData η) (count : Shared η → Int) : NodeData η :=
  { d with count := some count }

def withArchetypeRows (d : NodeData η) (id : ArchetypeId) : NodeData η :=
  d.withCount fun shared =>
    match shared.storage.numRows id with
    | .ok rows => rows
    | .error _ => -1

def queryRows (ref : η → QueryRef) : NodeData η :=
  empty.withCount fun shared =>
    match shared.storage.queryRowCount (ref shared.host) with
    | .ok rows => if rows < 0x8000000000000000 then rows else -1
    | .error _ => -1

def word? (d : NodeData η) : Option UInt64 :=
  match d.payload with
  | some (.word n) => some n
  | _ => none

def text? (d : NodeData η) : Option String :=
  match d.payload with
  | some (.text s) => some s
  | _ => none

def hasCount (d : NodeData η) : Bool := d.count.isSome

def dynamicCount (d : NodeData η) (shared : Shared η) : Option Int :=
  d.count.map (· shared)

instance : ToString (NodeData η) :=
  ⟨fun d => RecordText.record "NodeData"
    [("has_payload", toString d.payload.isSome), ("has_count", toString d.hasCount)]⟩

end NodeData

structure NodeSpec (η : Type) where
  func : FuncId
  threadsPerInvocation : UInt32
  /-- The number of invocations; zero makes the node dynamic. -/
  fixedCount : UInt32
  data : NodeData η

namespace NodeSpec

variable {η : Type}

def fixed (func : FuncId) (count : UInt32) : NodeSpec η := ⟨func, 1, count, .empty⟩

def dynamic (func : FuncId) (data : NodeData η) : NodeSpec η := ⟨func, 1, 0, data⟩

def withThreadsPerInvocation (s : NodeSpec η) (threads : UInt32) : NodeSpec η :=
  { s with threadsPerInvocation := threads }

def withData (s : NodeSpec η) (data : NodeData η) : NodeSpec η := { s with data }

def isDynamic (s : NodeSpec η) : Bool := s.fixedCount == 0

def resolve (s : NodeSpec η) (id : NodeId) (shared : Shared η) : Except Fault UInt32 :=
  if s.isDynamic then
    match s.data.dynamicCount shared with
    | none => .error (.missingCount id.raw)
    | some n =>
        if 0 ≤ n ∧ n < Word.size32 then .ok (UInt32.ofNat n.toNat)
        else .error (.invalidCount id.raw n)
  else .ok s.fixedCount

instance : ToString (NodeSpec η) :=
  ⟨fun s => RecordText.record "NodeSpec"
    [("func", toString s.func), ("threads_per_invocation", toString s.threadsPerInvocation),
      ("fixed_count", toString s.fixedCount), ("data", toString s.data)]⟩

end NodeSpec
end Lockstep
