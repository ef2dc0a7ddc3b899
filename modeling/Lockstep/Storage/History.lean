import Lockstep.Storage
import Mathlib.Control.Monad.Basic

/-!
# Histories of a storage

Registrations, entities, values, queries and rows in any order, each with the answer of
the storage.  A call that is refused belongs to the history as well, and so does one that
faults, which leaves the storage as it was.
-/

namespace Lockstep

deriving instance DecidableEq for Value

inductive StorageCall where
  | registerComponent (info : TypeInfo)
  | registerComponentWithId (id : ComponentId) (info : TypeInfo)
  | registerComponentType (type : ValueType)
  | registerArchetype (components : List ComponentId)
  | makeEntity (archetype : ArchetypeId) (world : WorldId)
  | destroyEntity (entity : Entity)
  | clearTemporaries (archetype : ArchetypeId)
  | makeQuery (components : List ComponentId) (ref : QueryRef)
  | setComponent (entity : Entity) (component : ComponentId) (value : Value)
  /-- Takes rows of the table of an archetype directly, without making entities. -/
  | allocRows (archetype : ArchetypeId) (count : Nat)
deriving DecidableEq

inductive StorageAnswer where
  | done
  | component (id : ComponentId)
  | archetype (id : ArchetypeId)
  | entity (entity : Entity)
  | destroyed (was : Bool)
  /-- How a request for matches ended, and the reference that it leaves. -/
  | query (result : Except StorageError Unit) (ref : QueryRef)
  | rows (first : Nat)
  | refused (error : StorageError)
  | faulted (fault : Fault)
deriving DecidableEq

def StorageAnswer.error? : StorageAnswer → Option StorageError
  | refused e | query (.error e) _ => some e
  | _ => none

structure StorageExchange where
  call : StorageCall
  answer : StorageAnswer
deriving DecidableEq

namespace StorageCall

/-- Whether the call writes the column that names the owners of the rows. -/
def setsOwner : StorageCall → Bool
  | setComponent _ component _ => component == .entity
  | _ => false

def takesRows : StorageCall → Bool
  | allocRows .. => true
  | _ => false

end StorageCall

namespace StorageExchange

def destroys (e : Entity) : StorageExchange → Bool
  | ⟨.destroyEntity e', .destroyed true⟩ => e' == e
  | _ => false

def clears (a : ArchetypeId) : StorageExchange → Bool
  | ⟨.clearTemporaries a', .done⟩ => a' == a
  | _ => false

def makes : StorageExchange → Bool
  | ⟨.makeEntity .., .entity _⟩ => true
  | _ => false

/-- Whether the exchange takes an entity out of the storage. -/
def frees : StorageExchange → Bool
  | ⟨.destroyEntity _, .destroyed true⟩ => true
  | _ => false

def makesIn (a : ArchetypeId) : StorageExchange → Bool
  | ⟨.makeEntity a' _, .entity _⟩ => a' == a
  | _ => false

/-- The bytes that the exchange sets a component of an entity to. -/
def sets? (e : Entity) (c : ComponentId) : StorageExchange → Option (List UInt8)
  | ⟨.setComponent e' c' value, .done⟩ => if e' = e ∧ c' = c then some value.bytes else none
  | _ => none

/-- Whether the exchange hands out a row of an archetype directly. -/
def handsOut (a : ArchetypeId) (row : Nat) : StorageExchange → Bool
  | ⟨.allocRows a' count, .rows first⟩ => a' == a && decide (first ≤ row ∧ row < first + count)
  | _ => false

end StorageExchange

namespace Storage

/-- Takes rows of an archetype as its table hands them out. -/
def allocRows (s : Storage) (id : ArchetypeId) (count : Nat) :
    Except StorageError (Nat × Storage) := do
  let (first, table) ← (← s.archetype id).table.allocRows count
  return (first, s.setTable id table)

def perform (s : Storage) : StorageCall → StorageAnswer × Storage
  | .registerComponent info =>
      match s.registerComponent info with
      | .ok (id, s) => (.component id, s)
      | .error e => (.refused e, s)
  | .registerComponentWithId id info =>
      match s.registerComponentWithId id info with
      | .ok s => (.done, s)
      | .error e => (.refused e, s)
  | .registerComponentType type =>
      match s.registerComponentType type with
      | .ok (id, s) => (.component id, s)
      | .error e => (.refused e, s)
  | .registerArchetype components =>
      match s.registerArchetype components with
      | .ok (.ok (id, s)) => (.archetype id, s)
      | .ok (.error e) => (.refused e, s)
      | .error fault => (.faulted fault, s)
  | .makeEntity a world =>
      match s.makeEntity a world with
      | (.ok e, s) => (.entity e, s)
      | (.error e, s) => (.refused e, s)
  | .destroyEntity e =>
      match s.destroyEntity? e with
      | some s => (.destroyed true, s)
      | none => (.destroyed false, s)
  | .clearTemporaries a =>
      match s.clearTemporaries a with
      | .ok s => (.done, s)
      | .error e => (.refused e, s)
  | .makeQuery components ref =>
      let (result, ref, s) := s.makeQuery components ref
      (.query result ref, s)
  | .setComponent e component value =>
      match s.setComponent e component value with
      | .ok s => (.done, s)
      | .error error => (.refused error, s)
  | .allocRows a count =>
      match s.allocRows a count with
      | .ok (first, s) => (.rows first, s)
      | .error e => (.refused e, s)

section perform

variable (s : Storage) (id : ComponentId) (info : TypeInfo) (type : ValueType)
  (components : List ComponentId) (a : ArchetypeId) (world : WorldId) (e : Entity)
  (ref : QueryRef) (value : Value) (count : Nat)

theorem perform_registerComponent : s.perform (.registerComponent info) =
    match s.registerComponent info with
    | .ok (id, s) => (.component id, s)
    | .error e => (.refused e, s) := rfl

theorem perform_registerComponentWithId : s.perform (.registerComponentWithId id info) =
    match s.registerComponentWithId id info with
    | .ok s => (.done, s)
    | .error e => (.refused e, s) := rfl

theorem perform_registerComponentType : s.perform (.registerComponentType type) =
    match s.registerComponentType type with
    | .ok (id, s) => (.component id, s)
    | .error e => (.refused e, s) := rfl

theorem perform_registerArchetype : s.perform (.registerArchetype components) =
    match s.registerArchetype components with
    | .ok (.ok (id, s)) => (.archetype id, s)
    | .ok (.error e) => (.refused e, s)
    | .error fault => (.faulted fault, s) := rfl

theorem perform_makeEntity : s.perform (.makeEntity a world) =
    match s.makeEntity a world with
    | (.ok e, s) => (.entity e, s)
    | (.error e, s) => (.refused e, s) := rfl

theorem perform_destroyEntity : s.perform (.destroyEntity e) =
    match s.destroyEntity? e with
    | some s => (.destroyed true, s)
    | none => (.destroyed false, s) := rfl

theorem perform_clearTemporaries : s.perform (.clearTemporaries a) =
    match s.clearTemporaries a with
    | .ok s => (.done, s)
    | .error e => (.refused e, s) := rfl

theorem perform_makeQuery : s.perform (.makeQuery components ref) =
    (.query (s.makeQuery components ref).1 (s.makeQuery components ref).2.1,
      (s.makeQuery components ref).2.2) := rfl

theorem perform_setComponent : s.perform (.setComponent e id value) =
    match s.setComponent e id value with
    | .ok s => (.done, s)
    | .error error => (.refused error, s) := rfl

theorem perform_allocRows : s.perform (.allocRows a count) =
    match s.allocRows a count with
    | .ok (first, s) => (.rows first, s)
    | .error e => (.refused e, s) := rfl

end perform

def after (s : Storage) (calls : List StorageCall) : Storage :=
  calls.foldl (fun s call => (s.perform call).2) s

def exchanges : Storage → (calls : List StorageCall) → List StorageExchange
  | _, [] => []
  | s, call :: calls => ⟨call, (s.perform call).1⟩ :: exchanges (s.perform call).2 calls

/-- The slot that a call gives back.  A creation that finds its table full gives back the
slot that it has taken. -/
def released? (s : Storage) : StorageCall → Option UInt32
  | .destroyEntity e => if s.entities.isLive e then some e.index else none
  | .makeEntity a world =>
      match (s.makeEntity a world).1 with
      | .error (.tableFull _) => s.entities.allocate.map (·.1.index)
      | _ => none
  | _ => none

/-- How often the calls give a slot back. -/
def releasesOf (i : UInt32) : Storage → (calls : List StorageCall) → Nat
  | _, [] => 0
  | s, call :: calls =>
      (if s.released? call = some i then 1 else 0) + releasesOf i (s.perform call).2 calls

/-- Whether the calls hand out a row directly before an entity is made in it. -/
def exposes (location : EntityLocation) : Storage → (calls : List StorageCall) → Bool
  | _, [] => false
  | s, call :: calls =>
      let x : StorageExchange := ⟨call, (s.perform call).1⟩
      if x.handsOut location.archetype location.row then true
      else if x.makesIn location.archetype
          && (s.numRows location.archetype).toOption == some location.row then false
      else exposes location (s.perform call).2 calls

/-- The number of entities made in an archetype since it was cleared last. -/
def rowsOf (a : ArchetypeId) (history : List StorageExchange) : Nat :=
  history.foldl (fun n x => if x.clears a then 0 else if x.makesIn a then n + 1 else n) 0

/-- The bytes that a component of an entity was set to last. -/
def lastSet (e : Entity) (c : ComponentId) (history : List StorageExchange) :
    Option (List UInt8) :=
  history.foldl (fun last x => (x.sets? e c).or last) none

end Storage
end Lockstep
