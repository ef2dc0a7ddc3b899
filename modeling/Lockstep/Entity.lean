import Lockstep.Bytes
import Lockstep.Identifier

/-!
# Entity handles

A handle names a slot and the generation that the slot had when the handle was
issued.  Releasing a slot moves it to the next generation, so handles to the
former occupant can be told apart from handles to the present one.
-/

namespace Lockstep

structure Entity where
  index : UInt32
  generation : UInt32
deriving DecidableEq

namespace Entity

/-- The generation in the upper half of the word, the index in the lower. -/
def bits (e : Entity) : UInt64 := e.generation.toUInt64 <<< 32 ||| e.index.toUInt64

def ofBits (bits : UInt64) : Entity := ⟨bits.toUInt32, (bits >>> 32).toUInt32⟩

/-- A handle in memory: index first, each half little-endian. -/
def bytes (e : Entity) : List UInt8 :=
  Bytes.ofUInt32 e.index ++ Bytes.ofUInt32 e.generation

def ofBytes (bs : List UInt8) : Entity :=
  ⟨Bytes.toUInt32 bs, Bytes.toUInt32 (bs.drop 4)⟩

def short (e : Entity) : String := s!"{e.index}v{e.generation}"

instance : ToString Entity := ⟨fun e => s!"Entity({e.short})"⟩

end Entity

structure EntityLocation where
  archetype : ArchetypeId
  row : Nat
deriving DecidableEq

end Lockstep
