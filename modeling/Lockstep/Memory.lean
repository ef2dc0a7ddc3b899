import Std.Data.HashMap

/-!
# Zeroed memory

Memory starts out zero everywhere and keeps what was written.  Only written
bytes take up room, so a large reservation costs nothing.
-/

namespace Lockstep

structure Memory where
  written : Std.HashMap Nat UInt8

namespace Memory

def zeroed : Memory := ⟨∅⟩

def byte (m : Memory) (addr : Nat) : UInt8 := m.written.getD addr 0

/-- The bytes of `[start, start + len)`. -/
def read (m : Memory) (start len : Nat) : List UInt8 :=
  (List.range len).map fun i => m.byte (start + i)

def writeByte (m : Memory) (addr : Nat) (b : UInt8) : Memory :=
  ⟨m.written.insert addr b⟩

def write (m : Memory) (start : Nat) : List UInt8 → Memory
  | [] => m
  | b :: bs => (m.writeByte start b).write (start + 1) bs

def fill (m : Memory) (start : Nat) (b : UInt8) : (len : Nat) → Memory
  | 0 => m
  | len + 1 => (m.writeByte start b).fill (start + 1) b len

@[simp] theorem byte_zeroed (addr : Nat) : zeroed.byte addr = 0 := by
  simp [byte, zeroed]

theorem byte_writeByte (m : Memory) (addr other : Nat) (b : UInt8) :
    (m.writeByte addr b).byte other = if addr = other then b else m.byte other := by
  simp only [byte, writeByte, Std.HashMap.getD_insert, beq_iff_eq]

@[simp] theorem length_read (m : Memory) (start len : Nat) :
    (m.read start len).length = len := by simp [read]

end Memory
end Lockstep
