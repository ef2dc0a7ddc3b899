import Lockstep.Identifier
import Lockstep.Word

/-!
# Lanes

The lanes of a group move in lock-step; a mask tells which of them did work.  The
lanes that serve a claim share out its offsets by their thread numbers.
-/

namespace Lockstep

structure LaneMask where
  bits : UInt64
deriving DecidableEq

namespace LaneMask

def empty : LaneMask := ⟨0⟩

def full (lanes : UInt32) : LaneMask :=
  if 64 ≤ lanes then ⟨0xFFFFFFFFFFFFFFFF⟩ else ⟨(1 <<< lanes.toUInt64) - 1⟩

def bit (lane : UInt32) : Except Fault UInt64 :=
  if lane < 64 then .ok (1 <<< lane.toUInt64) else .error .shiftOverflow

def set (m : LaneMask) (lane : UInt32) : Except Fault LaneMask := do
  return ⟨m.bits ||| (← bit lane)⟩

def contains (m : LaneMask) (lane : UInt32) : Except Fault Bool := do
  return m.bits &&& (← bit lane) != 0

def count (m : LaneMask) : Nat := (List.range 64).countP m.bits.toNat.testBit

def isEmpty (m : LaneMask) : Bool := m.bits == 0

end LaneMask

structure Work where
  node : NodeId
  func : FuncId
  invocationOffset : UInt32
  threadInInvocation : UInt32
deriving DecidableEq

/-- A node as a block has picked it up. -/
structure Pickup where
  node : NodeId
  func : FuncId
  total : UInt32
  threadsPerInvocation : UInt32
deriving DecidableEq

namespace Pickup

/-- The work of a thread that serves a claim from `base` on.  A thread whose offset
is past the total sits out. -/
def workOf (p : Pickup) (base thread : UInt32) : Option Work :=
  let offset := Word.saturatingAdd base (thread / p.threadsPerInvocation)
  if offset < p.total then some ⟨p.node, p.func, offset, thread % p.threadsPerInvocation⟩
  else none

/-- The lanes of a group that have work, each with its work; the lanes count their
threads from `first` on. -/
def assign (p : Pickup) (base first lanes : UInt32) : List (UInt32 × Work) :=
  (List.range lanes.toNat).filterMap fun lane =>
    let lane := UInt32.ofNat lane
    (p.workOf base (first + lane)).map (lane, ·)

end Pickup
end Lockstep
