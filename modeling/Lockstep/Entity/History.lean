import Lockstep.Entity.Store

/-!
# Histories of an entity store

Allocations, releases and locations in any order, for any handles, each with the answer of
the store.  What a history says of a slot is read off the calls that were not refused.
-/

namespace Lockstep

inductive EntityCall where
  | allocate
  | release (entity : Entity)
  | setLocation (entity : Entity) (location : EntityLocation)
deriving DecidableEq

inductive EntityAnswer where
  | allocated (entity : Option Entity)
  | done (was : Bool)
deriving DecidableEq

structure EntityExchange where
  call : EntityCall
  answer : EntityAnswer
deriving DecidableEq

namespace EntityExchange

def issued? : EntityExchange → Option Entity
  | ⟨.allocate, .allocated e⟩ => e
  | _ => none

def released? : EntityExchange → Option Entity
  | ⟨.release e, .done true⟩ => some e
  | _ => none

def located? : EntityExchange → Option (Entity × EntityLocation)
  | ⟨.setLocation e location, .done true⟩ => some (e, location)
  | _ => none

/-- The slot that the exchange changes. -/
def slot? (x : EntityExchange) : Option UInt32 :=
  match x.issued?.or x.released?, x.located? with
  | some e, _ => some e.index
  | none, some (e, _) => some e.index
  | none, none => none

/-- The handle that holds a slot after the exchange, given the one that held it before. -/
def holder (i : UInt32) (before : Option Entity) (x : EntityExchange) : Option Entity :=
  match x.issued?, x.released? with
  | some e, _ => if e.index = i then some e else before
  | none, some e => if e.index = i then none else before
  | none, none => before

/-- The location of a slot after the exchange, given the one before. -/
def location (i : UInt32) (before : Option EntityLocation) (x : EntityExchange) :
    Option EntityLocation :=
  match x.issued?.or x.released?, x.located? with
  | some e, _ => if e.index = i then none else before
  | none, some (e, location) => if e.index = i then some location else before
  | none, none => before

end EntityExchange

namespace EntityStore

def perform (s : EntityStore) : EntityCall → EntityAnswer × EntityStore
  | .allocate =>
      match s.allocate with
      | some (e, s) => (.allocated (some e), s)
      | none => (.allocated none, s)
  | .release e =>
      match s.release? e with
      | some s => (.done true, s)
      | none => (.done false, s)
  | .setLocation e location =>
      match s.setLocation? e location with
      | some s => (.done true, s)
      | none => (.done false, s)

def after (s : EntityStore) (calls : List EntityCall) : EntityStore :=
  calls.foldl (fun s call => (s.perform call).2) s

def exchanges : EntityStore → (calls : List EntityCall) → List EntityExchange
  | _, [] => []
  | s, call :: calls => ⟨call, (s.perform call).1⟩ :: exchanges (s.perform call).2 calls

/-- The slots that a history has given out, in that order. -/
def issuedIn (history : List EntityExchange) : List UInt32 :=
  history.filterMap fun x => x.issued?.map (·.index)

/-- The slots that a history has taken back, in that order. -/
def releasedIn (history : List EntityExchange) : List UInt32 :=
  history.filterMap fun x => x.released?.map (·.index)

def releasesOf (i : UInt32) (history : List EntityExchange) : Nat := (releasedIn history).count i

/-- The handle allocated last in a slot, as long as it has not been released. -/
def holderOf (i : UInt32) (history : List EntityExchange) : Option Entity :=
  history.foldl (EntityExchange.holder i) none

/-- The last location that the occupant of a slot was given. -/
def locationOf (i : UInt32) (history : List EntityExchange) : Option EntityLocation :=
  history.foldl (EntityExchange.location i) none

end EntityStore
end Lockstep
