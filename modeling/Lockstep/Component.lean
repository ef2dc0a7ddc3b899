import Lockstep.RecordText
import Lockstep.StorageError
import Lockstep.Word

/-!
# Component layouts and values

A component is known to the storage engine by the size and alignment of its
values only.  Typed access names a value type; its layout decides whether it
fits a column.
-/

namespace Lockstep

structure TypeInfo where
  alignment : UInt32
  numBytes : UInt32
deriving DecidableEq

namespace TypeInfo

def entity : TypeInfo := ⟨4, 8⟩

def worldId : TypeInfo := ⟨4, 4⟩

def size (t : TypeInfo) : Nat := t.numBytes.toNat

def isValid (t : TypeInfo) : Bool := Word.isPowerOfTwo t.alignment.toNat

instance : ToString TypeInfo :=
  ⟨fun t => RecordText.record "TypeInfo"
    [("alignment", toString t.alignment), ("num_bytes", toString t.numBytes)]⟩

end TypeInfo

/-- A value type, told apart from others of the same layout by its name. -/
structure ValueType where
  name : String
  info : TypeInfo
deriving DecidableEq

namespace ValueType

def entity : ValueType := ⟨"Entity", .entity⟩

def worldId : ValueType := ⟨"WorldId", .worldId⟩

end ValueType

structure Value where
  info : TypeInfo
  bytes : List UInt8
  length_bytes : bytes.length = info.size

namespace Value

def ofBytes? (info : TypeInfo) (bytes : List UInt8) : Option Value :=
  if h : bytes.length = info.size then some ⟨info, bytes, h⟩ else none

def ofEntity (e : Entity) : Value := ⟨.entity, e.bytes, by
  simp [Entity.bytes, Bytes.ofUInt32, Bytes.ofNat, TypeInfo.size, TypeInfo.entity]⟩

def ofWorldId (w : WorldId) : Value := ⟨.worldId, Bytes.ofUInt32 w.raw, by
  simp [Bytes.ofUInt32, Bytes.ofNat, TypeInfo.size, TypeInfo.worldId]⟩

end Value
end Lockstep
