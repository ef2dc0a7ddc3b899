import Lockstep.Config.Engine
import Lockstep.Trace.Event

/-!
# Host trace

The events around the runs of an engine with the time of each.  A trace file has
all events first and all times after them, as little-endian words of 64 bits.
-/

namespace Lockstep

structure HostTrace where
  entries : Array (HostEvent × Int64)
  now : Int64

namespace HostTrace

def fileSuffix : String := "_throng_host_tracing.bin"

def empty : HostTrace := ⟨#[], 0⟩

def record (t : HostTrace) (event : HostEvent) : HostTrace :=
  { t with entries := t.entries.push (event, t.now) }

def events (t : HostTrace) : List HostEvent := (t.entries.map Prod.fst).toList

def encode (entries : List (HostEvent × Int64)) : List UInt8 :=
  (entries.map (·.1.raw) ++ entries.map (·.2)).flatMap fun w => Bytes.ofUInt64 w.toUInt64

def words : (n : Nat) → List UInt8 → List Int64
  | 0, _ => []
  | n + 1, bs => (Bytes.toUInt64 bs).toInt64 :: words n (bs.drop 8)

def columns (bs : List UInt8) : List Int64 × List Int64 :=
  let n := bs.length / 16
  (words n bs, words n (bs.drop (8 * n)))

/-- Whether times start at zero or later and never go back. -/
def inOrder (times : List Int64) : Bool :=
  (0 :: times).zip times |>.all fun (before, time) => decide (before ≤ time)

def fileBytes (t : HostTrace) : List UInt8 := encode t.entries.toList

def writeTo (t : HostTrace) (directoryExists : Bool) : Except FileIssue TraceFile :=
  if directoryExists then .ok ⟨fileSuffix, t.fileBytes⟩ else .error .missing

end HostTrace
end Lockstep
