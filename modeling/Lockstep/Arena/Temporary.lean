import Lockstep.Arena

/-!
# Histories of a temporary region

Blocks that are asked for one after another and taken back together.  Sizes and alignments are
any 64-bit words, whether they can be served or not.  A log keeps the blocks that were handed
out since they were last taken back.
-/

namespace Lockstep

/-- The sum of two words, if it is a word below `bound`. -/
def Word.add? (bound a b : Nat) : Option Nat := if a + b < bound then some (a + b) else none

/-- A block, reckoned in 64-bit words.  To round up may leave the words, and faults then; an end
that leaves them is refused like one behind the region. -/
def TmpAllocator.allocWords (t : TmpAllocator) (bytes align : UInt64) :
    Except Fault (Option (Nat × TmpAllocator)) :=
  if Word.isPowerOfTwo align.toNat && decide (align.toNat ≤ LaunchLayout.tmpAlign) then do
    let start ← Word.mul Word.size64 (Word.ceilDiv t.used align.toNat) align.toNat
    let stop? := (Word.add? Word.size64 start bytes.toNat).filter (decide <| · ≤ t.capacity)
    return stop?.map fun stop => (start, { t with used := stop })
  else return none

inductive TmpCall where
  | alloc (bytes align : UInt64)
  | reset
deriving DecidableEq

structure TmpLog where
  tmp : TmpAllocator
  /-- The blocks that are out, with the alignments that were asked for. -/
  blocks : List Region
deriving DecidableEq

namespace TmpLog

def start (capacity : Nat) : TmpLog := ⟨⟨capacity, 0⟩, []⟩

def next (s : TmpLog) : TmpCall → TmpLog
  | .alloc bytes align =>
      match s.tmp.alloc bytes.toNat align.toNat with
      | some (start, tmp) => ⟨tmp, s.blocks ++ [⟨start, bytes.toNat, align.toNat⟩]⟩
      | none => s
  | .reset => ⟨s.tmp.reset, []⟩

def after (s : TmpLog) (calls : List TmpCall) : TmpLog := calls.foldl next s

end TmpLog
end Lockstep
