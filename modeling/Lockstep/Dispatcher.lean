import Lockstep.Arena
import Lockstep.PrintBuffer
import Lockstep.TaskGraph

/-!
# Dispatcher

Work names functions by id; the dispatcher holds what each id stands for.
-/

namespace Lockstep

structure Device (η : Type) where
  shared : Shared η
  arena : RunArena
  print : PrintBuffer

/-- Where an invocation finds itself.  It sees how far the scheduler is, but has
no hand in it. -/
structure InvocationContext (η : Type) where
  graph : TaskGraph η
  node : NodeId
  block : UInt32
  group : UInt32
  lane : UInt32
  threadInInvocation : UInt32

namespace InvocationContext

variable {η : Type}

instance : ToString (InvocationContext η) :=
  ⟨fun c => RecordText.record "InvocationContext"
    [("node", toString c.node), ("block", toString c.block), ("group", toString c.group),
      ("lane", toString c.lane), ("thread_in_invocation", toString c.threadInInvocation)]⟩

end InvocationContext

/-- One invocation for an offset: it may change the device, and it may fault. -/
def Invocation (η : Type) : Type :=
  InvocationContext η → NodeData η → (offset : UInt32) → Device η → Except Fault Unit × Device η

structure Dispatcher (η : Type) where
  funcs : Array (Invocation η)

namespace Dispatcher

variable {η : Type}

def empty : Dispatcher η := ⟨#[]⟩

def register (d : Dispatcher η) (invocation : Invocation η) : FuncId × Dispatcher η :=
  (⟨UInt32.ofNat d.funcs.size⟩, ⟨d.funcs.push invocation⟩)

def get? (d : Dispatcher η) (func : FuncId) : Option (Invocation η) := d.funcs[func.index]?

def contains (d : Dispatcher η) (func : FuncId) : Bool := decide (func.index < d.funcs.size)

def size (d : Dispatcher η) : Nat := d.funcs.size

def isEmpty (d : Dispatcher η) : Bool := d.funcs.isEmpty

instance : ToString (Dispatcher η) :=
  ⟨fun d => RecordText.record "Dispatcher" [("funcs", toString d.size)]⟩

end Dispatcher
end Lockstep
