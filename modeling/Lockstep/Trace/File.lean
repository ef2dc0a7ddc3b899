import Lockstep.Trace.Calls
import Lockstep.Trace.Host
import Mathlib.Algebra.Order.Ring.Nat

/-!
# What trace files say

The notes that a device trace was asked for with their times, the halves of the words that its
buffer keeps of them, and the numbers that stand in its file.
-/

namespace Lockstep

/-- A note with the time at which it is asked for. -/
structure TimedNote where
  note : TraceNote
  now : UInt64
deriving DecidableEq

namespace TimedNote

def record (n : TimedNote) : DeviceRecord := n.note.recordAt n.now

def ofRecord? (r : DeviceRecord) : Option TimedNote := r.note?.map (⟨·, r.timestamp⟩)

end TimedNote

namespace TraceCall

def noteTimed (noted : List TimedNote) : TraceCall → List TimedNote
  | reset now => [⟨.calibration, now⟩]
  | record note now => noted ++ [⟨note, now⟩]

/-- The notes asked for since the last reset, the calibration of the reset first. -/
def noted (calls : List TraceCall) : List TimedNote := calls.foldl noteTimed []

end TraceCall

def PackedRecord.words (p : PackedRecord) : List Nat :=
  [p.eventFunc.toNat, p.countNode.toNat, p.origin.toNat, p.timestamp.toNat]

/-- A number of so many bytes at a place in a record of a trace file. -/
structure FileField where
  offset : Nat
  width : Nat
  value : Nat

namespace DeviceRecord

/-- The four words for a record.  Of two numbers in a word, the first is in the low half. -/
def words (r : DeviceRecord) : List Nat :=
  [r.event.toNat + r.func.toNat * 2 ^ 32, r.numInvocations.toNat + r.node.toNat * 2 ^ 32,
    r.block.toNat + r.group.toNat * 2 ^ 32, r.timestamp.toNat]

def fields (r : DeviceRecord) : List FileField :=
  [⟨0, 4, r.event.toNat⟩, ⟨4, 4, r.func.toNat⟩, ⟨8, 4, r.numInvocations.toNat⟩,
    ⟨12, 4, r.node.toNat⟩, ⟨16, 4, r.block.toNat⟩, ⟨20, 4, r.group.toNat⟩,
    ⟨24, 8, r.timestamp.toNat⟩]

end DeviceRecord

namespace HostTrace

def recordAt (t : HostTrace) (entry : HostEvent × Int64) : HostTrace :=
  { t with now := entry.2 }.record entry.1

/-- A trace of these events, each at its time. -/
def ofEvents (entries : List (HostEvent × Int64)) : HostTrace := entries.foldl recordAt empty

/-- The columns of a host trace file, put together again. -/
def entriesOf (bs : List UInt8) : List (Option HostEvent × Int64) :=
  ((columns bs).1.map HostEvent.ofRaw?).zip (columns bs).2

end HostTrace
end Lockstep
