import Lockstep.Arena
import Lockstep.Bytes

/-!
# Histories of an arena

Writes into replicas, and temporary blocks that are handed out, filled and taken back
together.  A session keeps, for each block that is out, the bytes that belong in it; what
belongs in a replica follows from the writes.
-/

namespace Lockstep

/-- A temporary block, with the bytes that were in it when it was handed out and the fills
since then. -/
structure TmpBlock where
  start : Nat
  contents : List UInt8
deriving DecidableEq

namespace TmpBlock

def stop (b : TmpBlock) : Nat := b.start + b.contents.length

def fill (b : TmpBlock) (position : Nat) (bytes : List UInt8) : TmpBlock :=
  { b with contents := Bytes.overwrite b.contents position bytes }

end TmpBlock

inductive ArenaCall where
  | write (world : WorldId) (position : Nat) (bytes : List UInt8)
  | alloc (bytes align : Nat)
  /-- Writes into a block, counted among those that are out. -/
  | fill (block position : Nat) (bytes : List UInt8)
  | reset

namespace ArenaCall

/-- What a call writes to a byte of a replica.  A write that does not fit the stride is
refused as a whole. -/
def byte? (stride : Nat) (world : WorldId) (i : Nat) : ArenaCall → Option UInt8
  | write other position bytes =>
      if other = world ∧ position + bytes.length ≤ stride ∧ position ≤ i then
        bytes[i - position]?
      else none
  | _ => none

def writesTo (world : WorldId) : ArenaCall → Bool
  | write other _ _ => other == world
  | _ => false

def fills (k : Nat) : ArenaCall → Bool
  | fill block _ _ => block == k
  | _ => false

/-- The last value written to a byte of a replica, or zero. -/
def lastWritten (stride : Nat) (world : WorldId) (i : Nat) (calls : List ArenaCall) : UInt8 :=
  (calls.filterMap (·.byte? stride world i)).getLast?.getD 0

/-- What a history leaves in a replica. -/
def replica (stride : Nat) (world : WorldId) (calls : List ArenaCall) : List UInt8 :=
  (List.range stride).map fun i => lastWritten stride world i calls

end ArenaCall

structure ArenaSession where
  arena : RunArena
  /-- The blocks handed out since the last reset. -/
  blocks : List TmpBlock

namespace ArenaSession

def start (a : RunArena) : ArenaSession := ⟨a, []⟩

/-- One call.  What does not fit, or has no target, changes nothing. -/
def next (s : ArenaSession) : ArenaCall → ArenaSession
  | .write world position bytes =>
      match s.arena.writeWorld? world position bytes with
      | some (some arena) => { s with arena }
      | _ => s
  | .alloc bytes align =>
      match s.arena.alloc bytes align with
      | some (start, arena) => ⟨arena, s.blocks ++ [⟨start, arena.tmpRead start bytes⟩]⟩
      | none => s
  | .fill k position bytes =>
      match s.blocks[k]? with
      | some block =>
          if position + bytes.length ≤ block.contents.length then
            ⟨s.arena.tmpWrite (block.start + position) bytes,
              s.blocks.set k (block.fill position bytes)⟩
          else s
      | none => s
  | .reset => ⟨s.arena.resetTmp, []⟩

def after (s : ArenaSession) (calls : List ArenaCall) : ArenaSession := calls.foldl next s

end ArenaSession
end Lockstep
