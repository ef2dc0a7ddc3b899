import Lockstep.Trace.History

/-!
# Calls of a device trace

Records and resets one after another, each at a time of its own, with the records that were
asked for since the last reset.  The counter that gives out the places has 32 bits: it starts a
new lap over the buffer with each 2 ^ 32 records.
-/

namespace Lockstep

def TraceNote.recordAt (n : TraceNote) (now : UInt64) : DeviceRecord :=
  ⟨n.mark.event.raw, n.mark.func.raw, n.mark.count, n.mark.node.raw, n.origin.block,
    n.origin.group, now⟩

inductive TraceCall where
  | reset (now : UInt64)
  | record (note : TraceNote) (now : UInt64)

namespace TraceCall

def ask (asked : List DeviceRecord) : TraceCall → List DeviceRecord
  | reset now => [TraceNote.calibration.recordAt now]
  | record note now => asked ++ [note.recordAt now]

/-- The records asked for since the last reset, that of the reset itself first. -/
def asked (calls : List TraceCall) : List DeviceRecord := calls.foldl ask []

/-- The records of the lap that the counter is in. -/
def lap (asked : List DeviceRecord) : List DeviceRecord :=
  asked.drop (asked.length / Word.size32 * Word.size32)

/-- How many of `n` records find no place: in each lap those that come after the buffer is
full. -/
def missed (capacity n : Nat) : Nat :=
  n / Word.size32 * (Word.size32 - capacity) + (n % Word.size32 - capacity)

end TraceCall

namespace DeviceTrace

def perform (t : DeviceTrace) : TraceCall → DeviceTrace
  | .reset now => { t with now }.reset
  | .record note now => { t with now }.note note

def performAll (t : DeviceTrace) (calls : List TraceCall) : DeviceTrace := calls.foldl perform t

end DeviceTrace
end Lockstep
