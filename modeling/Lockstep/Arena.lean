import Lockstep.Layout
import Lockstep.Memory

/-!
# The run arena

Zeroed memory for the host span of a layout.  Replica data lies at fixed places.
The temporary region is handed out from front to back and rewound as a whole, and
rewinding does not clear it.
-/

namespace Lockstep

structure TmpAllocator where
  capacity : Nat
  used : Nat
deriving DecidableEq

namespace TmpAllocator

/-- Hands out a block and answers where it starts.  `none` when the alignment is
not served or the block does not fit. -/
def alloc (t : TmpAllocator) (bytes align : Nat) : Option (Nat × TmpAllocator) :=
  if Word.isPowerOfTwo align && decide (align ≤ LaunchLayout.tmpAlign) then
    let start := Word.alignUp t.used align
    if start + bytes ≤ t.capacity then some (start, { t with used := start + bytes }) else none
  else none

def reset (t : TmpAllocator) : TmpAllocator := { t with used := 0 }

end TmpAllocator

structure RunArena where
  layout : LaunchLayout
  span : Region
  numWorlds : UInt32
  memory : Memory
  tmp : TmpAllocator

namespace RunArena

def new (layout : LaunchLayout) (numWorlds : UInt32) : Except Fault RunArena := do
  let span ← layout.hostSpan
  if span.bytes = 0 ∨ Word.representable span.bytes span.align then
    return ⟨layout, span, numWorlds, .zeroed, ⟨layout.tmpAlloc.bytes, 0⟩⟩
  else throw .arenaLayout

def len (a : RunArena) : Nat := a.span.bytes

def worldOffset? (a : RunArena) (world : WorldId) : Option Nat :=
  if world.raw < a.numWorlds then
    some (a.layout.worldData.offset - a.span.offset + world.index * a.layout.worldStride)
  else none

def worldData? (a : RunArena) (world : WorldId) : Option (List UInt8) :=
  (a.worldOffset? world).map (a.memory.read · a.layout.worldStride)

/-- Overwrites data of a replica from position `at` on.  The outer answer is
`none` for a replica that does not exist, the inner one when the bytes do not
fit. -/
def writeWorld? (a : RunArena) (world : WorldId) (position : Nat) (bytes : List UInt8) :
    Option (Option RunArena) :=
  (a.worldOffset? world).map fun start =>
    if position + bytes.length ≤ a.layout.worldStride then
      some { a with memory := a.memory.write (start + position) bytes }
    else none

def tmpOffset (a : RunArena) : Nat := a.layout.tmpAlloc.offset - a.span.offset

def alloc (a : RunArena) (bytes align : Nat) : Option (Nat × RunArena) :=
  (a.tmp.alloc bytes align).map fun (start, tmp) => (start, { a with tmp })

def tmpRead (a : RunArena) (start len : Nat) : List UInt8 :=
  a.memory.read (a.tmpOffset + start) len

def tmpWrite (a : RunArena) (start : Nat) (bytes : List UInt8) : RunArena :=
  { a with memory := a.memory.write (a.tmpOffset + start) bytes }

def tmpFill (a : RunArena) (start len : Nat) (b : UInt8) : RunArena :=
  { a with memory := a.memory.fill (a.tmpOffset + start) b len }

def resetTmp (a : RunArena) : RunArena := { a with tmp := a.tmp.reset }

end RunArena
end Lockstep
