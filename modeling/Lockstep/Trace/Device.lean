import Lockstep.Layout
import Lockstep.Trace.Event

/-!
# Device trace

A buffer of fixed size that workers append to during a run.  A record takes four
words in the buffer and 32 bytes in the trace file.  One counter gives out the
places of the buffer; it goes on counting when the buffer is full.
-/

namespace Lockstep

structure DeviceRecord where
  event : UInt32
  func : UInt32
  numInvocations : UInt32
  node : UInt32
  block : UInt32
  group : UInt32
  timestamp : UInt64
deriving DecidableEq

/-- A record in the buffer: each of the first three words holds two fields. -/
structure PackedRecord where
  eventFunc : UInt64
  countNode : UInt64
  origin : UInt64
  timestamp : UInt64
deriving DecidableEq

namespace PackedRecord

def pair (low high : UInt32) : UInt64 := low.toUInt64 ||| high.toUInt64 <<< 32

def low (w : UInt64) : UInt32 := w.toUInt32

def high (w : UInt64) : UInt32 := (w >>> 32).toUInt32

def unpack (p : PackedRecord) : DeviceRecord where
  event := low p.eventFunc
  func := high p.eventFunc
  numInvocations := low p.countNode
  node := high p.countNode
  block := low p.origin
  group := high p.origin
  timestamp := p.timestamp

end PackedRecord

namespace DeviceRecord

def pack (r : DeviceRecord) : PackedRecord where
  eventFunc := PackedRecord.pair r.event r.func
  countNode := PackedRecord.pair r.numInvocations r.node
  origin := PackedRecord.pair r.block r.group
  timestamp := r.timestamp

def kind? (r : DeviceRecord) : Option DeviceEvent := DeviceEvent.ofRaw? r.event

def bytes (r : DeviceRecord) : List UInt8 :=
  [r.event, r.func, r.numInvocations, r.node, r.block, r.group].flatMap Bytes.ofUInt32 ++
    Bytes.ofUInt64 r.timestamp

def ofBytes (bs : List UInt8) : DeviceRecord where
  event := Bytes.toUInt32 bs
  func := Bytes.toUInt32 (bs.drop 4)
  numInvocations := Bytes.toUInt32 (bs.drop 8)
  node := Bytes.toUInt32 (bs.drop 12)
  block := Bytes.toUInt32 (bs.drop 16)
  group := Bytes.toUInt32 (bs.drop 20)
  timestamp := Bytes.toUInt64 (bs.drop 24)

end DeviceRecord

structure DeviceTrace where
  enabled : Bool
  capacity : UInt32
  /-- How many places were given out, counted in 32 bits. -/
  len : UInt32
  dropped : UInt64
  slots : Array PackedRecord
  now : UInt64

namespace DeviceTrace

def fileSuffix : String := "_throng_device_tracing.bin"

def new (capacity : UInt32) : DeviceTrace := ⟨true, capacity, 0, 0, #[], 0⟩

def disabled : DeviceTrace := { new 0 with enabled := false }

def ofConfig (c : TraceConfig) : DeviceTrace := if c.enabled then new c.capacity else disabled

def setSlot (t : DeviceTrace) (i : Nat) (p : PackedRecord) : DeviceTrace :=
  if i < t.slots.size then { t with slots := t.slots.setIfInBounds i p }
  else { t with slots := t.slots.push p }

def append (t : DeviceTrace) (r : DeviceRecord) : DeviceTrace :=
  if t.enabled then
    let place := t.len
    let t := { t with len := t.len + 1 }
    if place < t.capacity then t.setSlot place.toNat r.pack
    else { t with dropped := t.dropped + 1 }
  else t

def record (t : DeviceTrace) (event : DeviceEvent) (func : FuncId) (numInvocations : UInt32)
    (node : NodeId) (origin : TraceOrigin) : DeviceTrace :=
  t.append ⟨event.raw, func.raw, numInvocations, node.raw, origin.block, origin.group, t.now⟩

def reset (t : DeviceTrace) : DeviceTrace :=
  { t with len := 0, dropped := 0 }.record .calibration ⟨0⟩ 0 ⟨0⟩ .first

/-- The records kept, in the order of their places. -/
def records (t : DeviceTrace) : List DeviceRecord :=
  (t.slots.toList.take t.len.toNat).map PackedRecord.unpack

def filePieces (bs : List UInt8) : List (List UInt8) :=
  Bytes.pieces LaunchLayout.traceRecordBytes (bs.length / LaunchLayout.traceRecordBytes) bs

def fileBytes (t : DeviceTrace) : List UInt8 := t.records.flatMap DeviceRecord.bytes

def writeTo (t : DeviceTrace) (directoryExists : Bool) : Except FileIssue TraceFile :=
  if directoryExists then .ok ⟨fileSuffix, t.fileBytes⟩ else .error .missing

def warning? (t : DeviceTrace) : Option String :=
  if t.dropped = 0 then none
  else some s!"device trace buffer overflowed dropped={t.dropped} capacity={t.capacity}"

end DeviceTrace
end Lockstep
