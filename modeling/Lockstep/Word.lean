import Lockstep.Fault

/-!
# Checked words

Sizes and offsets are natural numbers here; an operation that has to fit a
machine word is checked against the word's bound and faults beyond it.
-/

namespace Lockstep
namespace Word

/-- A word stands for its number. -/
instance coe32 : Coe UInt32 Nat := ⟨UInt32.toNat⟩

instance coe64 : Coe UInt64 Nat := ⟨UInt64.toNat⟩

def size32 : Nat := 0x100000000

def size64 : Nat := 0x10000000000000000

def maxAllocation : Nat := 0x7FFFFFFFFFFFFFFF

/-- `a + b`, within words below `bound`. -/
def add (bound a b : Nat) : Except Fault Nat :=
  if a + b < bound then .ok (a + b) else .error .addOverflow

def mul (bound a b : Nat) : Except Fault Nat :=
  if a * b < bound then .ok (a * b) else .error .mulOverflow

def ceilDiv (a b : Nat) : Nat := (a + b - 1) / b

def alignUp (a b : Nat) : Nat := ceilDiv a b * b

def isPowerOfTwo (n : Nat) : Bool := n != 0 && n &&& (n - 1) == 0

def representable (bytes align : Nat) : Bool :=
  isPowerOfTwo align && decide (alignUp bytes align ≤ maxAllocation)

/-- The sum of two 32-bit words, or the largest word when the sum exceeds it. -/
def saturatingAdd (a b : UInt32) : UInt32 :=
  if a.toNat + b.toNat < size32 then a + b else UInt32.ofNat (size32 - 1)

/-- The product of two 32-bit words, or the largest word when the product exceeds it. -/
def saturatingMul (a b : Nat) : Nat := min (a * b) (size32 - 1)

end Word
end Lockstep
