import Lockstep.Component

/-!
# The component registry

A table with a fixed number of slots, one layout a slot.  Slots are given out in
order, but a caller may also fill a slot of its choice, so the table can have
gaps.  The first two slots belong to the built-in components.
-/

namespace Lockstep

structure ComponentRegistry where
  slots : Array (Option TypeInfo)
  byType : List (String × ComponentId)
  /-- No slot before this one is free. -/
  nextFree : Nat

namespace ComponentRegistry

def builtins (maxComponents : UInt32) : ComponentRegistry where
  slots := ((Array.replicate maxComponents.toNat none).setIfInBounds ComponentId.entity.index
    (some TypeInfo.entity)).setIfInBounds ComponentId.worldId.index (some TypeInfo.worldId)
  byType := [(ValueType.entity.name, .entity), (ValueType.worldId.name, .worldId)]
  nextFree := 2

def new (maxComponents : UInt32) : Except Fault ComponentRegistry :=
  if maxComponents < 2 then .error .registryTooSmall else .ok (builtins maxComponents)

def capacity (r : ComponentRegistry) : UInt32 := UInt32.ofNat r.slots.size

def info? (r : ComponentRegistry) (id : ComponentId) : Option TypeInfo :=
  (r.slots[id.index]?).join

def isRegistered (r : ComponentRegistry) (id : ComponentId) : Bool := (r.info? id).isSome

def len (r : ComponentRegistry) : Nat := r.slots.countP (·.isSome)

def freeSlot? (r : ComponentRegistry) : Option Nat :=
  ((r.slots.toList.drop r.nextFree).findIdx? (·.isNone)).map (r.nextFree + ·)

def register (r : ComponentRegistry) (info : TypeInfo) :
    Except StorageError (ComponentId × ComponentRegistry) :=
  if info.isValid then
    match r.freeSlot? with
    | none => .error (.componentCapacity r.capacity)
    | some slot =>
        .ok (⟨UInt32.ofNat slot⟩,
          { r with slots := r.slots.setIfInBounds slot (some info), nextFree := slot + 1 })
  else .error (.invalidLayout info.alignment info.numBytes)

def registerWithId (r : ComponentRegistry) (id : ComponentId) (info : TypeInfo) :
    Except StorageError ComponentRegistry :=
  if info.isValid then
    match r.slots[id.index]? with
    | none => .error (.componentCapacity r.capacity)
    | some (some _) => .error (.duplicateComponent id)
    | some none => .ok { r with slots := r.slots.setIfInBounds id.index (some info) }
  else .error (.invalidLayout info.alignment info.numBytes)

def lookup (r : ComponentRegistry) (type : ValueType) : Option ComponentId :=
  r.byType.lookup type.name

/-- Registers a value type; each type may be registered once. -/
def registerType (r : ComponentRegistry) (type : ValueType) :
    Except StorageError (ComponentId × ComponentRegistry) :=
  match r.lookup type with
  | some existing => .error (.duplicateComponent existing)
  | none => do
      let (id, r) ← r.register type.info
      return (id, { r with byType := (type.name, id) :: r.byType })

end ComponentRegistry
end Lockstep
