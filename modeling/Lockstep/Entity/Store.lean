import Lockstep.Entity

/-!
# The entity store

A fixed number of slots, each with a generation.  Slots that were never used go
out first, in index order; after that, released slots come back in the order of
their release.  Only used slots are kept in memory.
-/

namespace Lockstep

/-- Whether a slot is taken, and if so where its entity lives once that is known. -/
inductive Occupancy where
  | free
  | live (location : Option EntityLocation)
deriving DecidableEq

namespace Occupancy

def isLive : Occupancy → Bool
  | free => false
  | live _ => true

def location? : Occupancy → Option EntityLocation
  | free => none
  | live location => location

end Occupancy

structure EntitySlot where
  generation : UInt32
  occupancy : Occupancy
deriving DecidableEq

structure EntityStore where
  capacity : Nat
  slots : Array EntitySlot
  /-- The used slots that are free again, in the order of their release. -/
  released : List UInt32

namespace EntityStore

def empty (capacity : UInt32) : EntityStore := ⟨capacity.toNat, #[], []⟩

/-- The slots that the next allocations will take, in that order. -/
def free (s : EntityStore) : List Nat :=
  List.range' s.slots.size (s.capacity - s.slots.size) ++ s.released.map (·.toNat)

def liveCount (s : EntityStore) : Nat := s.slots.size - s.released.length

def slot? (s : EntityStore) (e : Entity) : Option EntitySlot := s.slots[e.index.toNat]?

/-- A handle is live while its slot is taken and still in the handle's generation. -/
def isLive (s : EntityStore) (e : Entity) : Bool :=
  match s.slot? e with
  | some slot => slot.occupancy.isLive && slot.generation == e.generation
  | none => false

def location? (s : EntityStore) (e : Entity) : Option EntityLocation :=
  if s.isLive e then (s.slot? e).bind (·.occupancy.location?) else none

def allocate (s : EntityStore) : Option (Entity × EntityStore) :=
  if s.slots.size < s.capacity then
    some (⟨UInt32.ofNat s.slots.size, 0⟩, { s with slots := s.slots.push ⟨0, .live none⟩ })
  else
    match s.released with
    | [] => none
    | index :: rest =>
        let generation := (s.slots[index.toNat]?.map (·.generation)).getD 0
        some (⟨index, generation⟩,
          { s with
            slots := s.slots.setIfInBounds index.toNat ⟨generation, .live none⟩
            released := rest })

def setLocation? (s : EntityStore) (e : Entity) (location : EntityLocation) :
    Option EntityStore :=
  if s.isLive e then
    some { s with
      slots := s.slots.setIfInBounds e.index.toNat ⟨e.generation, .live (some location)⟩ }
  else none

def release? (s : EntityStore) (e : Entity) : Option EntityStore :=
  if s.isLive e then
    some { s with
      slots := s.slots.setIfInBounds e.index.toNat ⟨e.generation + 1, .free⟩
      released := s.released ++ [e.index] }
  else none

end EntityStore
end Lockstep
