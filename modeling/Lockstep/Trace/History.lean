import Lockstep.Lane
import Lockstep.Trace.Device

/-!
# Histories of a device trace

What the records of a trace tell, one after another: for each the event, the node it is
about with its function and count, and who made it.  The times are left out.
-/

namespace Lockstep

namespace DeviceEvent

def isNode : DeviceEvent → Bool
  | nodeStart | nodeFinish => true
  | _ => false

def isBlock : DeviceEvent → Bool
  | blockStart | blockWait | blockExit => true
  | _ => false

end DeviceEvent

/-- What a record is about. -/
structure Mark where
  event : DeviceEvent
  node : NodeId
  func : FuncId
  count : UInt32
deriving DecidableEq

structure TraceNote where
  mark : Mark
  origin : TraceOrigin
deriving DecidableEq

namespace Mark

/-- The record at the start of a run. -/
def calibration : Mark := ⟨.calibration, ⟨0⟩, ⟨0⟩, 0⟩

/-- The record of a block that has seen the cursor behind the last node. -/
def exit (cursor : NodeId) : Mark := ⟨.blockExit, cursor, ⟨0⟩, 0⟩

end Mark

def Pickup.mark (p : Pickup) (event : DeviceEvent) : Mark := ⟨event, p.node, p.func, p.total⟩

/-- The time that a block spends with a node, and whether the trace tells of its end. -/
structure Pass where
  pickup : Pickup
  waited : Bool
deriving DecidableEq

def Pass.marks (a : Pass) : List Mark :=
  a.pickup.mark .blockStart :: if a.waited then [a.pickup.mark .blockWait] else []

namespace TraceNote

def calibration : TraceNote := ⟨.calibration, .first⟩

/-- What a trace tells of the nodes of the graph. -/
def nodeMarks (notes : List TraceNote) : List Mark := (notes.map mark).filter (·.event.isNode)

/-- What a trace tells of a block. -/
def blockMarks (b : Nat) (notes : List TraceNote) : List Mark :=
  ((notes.filter (·.origin.block.toNat == b)).map mark).filter (·.event.isBlock)

end TraceNote

def DeviceRecord.note? (r : DeviceRecord) : Option TraceNote :=
  r.kind?.map fun event => ⟨⟨event, ⟨r.node⟩, ⟨r.func⟩, r.numInvocations⟩, ⟨r.block, r.group⟩⟩

namespace DeviceTrace

def note (t : DeviceTrace) (n : TraceNote) : DeviceTrace :=
  t.record n.mark.event n.mark.func n.mark.count n.mark.node n.origin

def noteAll (t : DeviceTrace) (notes : List TraceNote) : DeviceTrace := notes.foldl note t

/-- Whether just these are the records of a trace, in this order. -/
def Shows (t : DeviceTrace) (notes : List TraceNote) : Prop :=
  t.records.map DeviceRecord.note? = notes.map some

end DeviceTrace
end Lockstep
