import Lockstep.Storage.History
import Mathlib.Logic.Function.Basic

/-!
# Room for entities

What decides whether entities can be made: how many slots are free, and how many rows each
table has in use and altogether.  It also tells how requests for entities are answered that
are made one after the other.
-/

namespace Lockstep

@[ext]
structure Room where
  maxEntities : UInt32
  slots : Nat
  /-- The rows in use and all rows of a table, if there is such an archetype. -/
  rows : ArchetypeId → Option (Nat × Nat)

namespace Room

/-- Why no entity can be made in an archetype, if so. -/
def refusal? (r : Room) (a : ArchetypeId) : Option StorageError :=
  match r.rows a with
  | none => some (.unknownArchetype a)
  | some (used, max) =>
      if r.slots = 0 then some (.entityCapacity r.maxEntities)
      else if max ≤ used then some (.tableFull max)
      else none

/-- One slot and one row of an archetype are taken. -/
def occupy (r : Room) (a : ArchetypeId) : Room :=
  { r with
    slots := r.slots - 1
    rows := Function.update r.rows a ((r.rows a).map fun rows => (rows.1 + 1, rows.2)) }

/-- The room after a request for an entity. -/
def next (r : Room) (a : ArchetypeId) : Room :=
  match r.refusal? a with
  | some _ => r
  | none => r.occupy a

def refusals : Room → List ArchetypeId → List (Option StorageError)
  | _, [] => []
  | r, a :: rest => r.refusal? a :: (r.next a).refusals rest

/-- The number of entities that can still be made in an archetype. -/
def left (r : Room) (a : ArchetypeId) : Nat :=
  min r.slots (((r.rows a).map fun rows => rows.2 - rows.1).getD 0)

end Room

namespace Storage

def room (s : Storage) : Room where
  maxEntities := s.config.maxEntities
  slots := s.entities.free.length
  rows a := s.archetypes[a.index]?.map fun archetype =>
    (archetype.table.numRows, archetype.table.maxRows)

/-- How entities are refused that are requested one after the other. -/
def refusals (s : Storage) (wanted : List (ArchetypeId × WorldId)) : List (Option StorageError) :=
  (s.exchanges (wanted.map fun request => .makeEntity request.1 request.2)).map (·.answer.error?)

end Storage
end Lockstep
