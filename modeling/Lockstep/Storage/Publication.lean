import Lockstep.Storage

/-!
# Publishing a query

Many threads may ask for one query at once, through one reference.  A caller looks
at the reference, takes the lock of the query cache, looks again, and only then
resolves the query.  It stores the fields of the reference one after another, the
number of matches last; a reader looks at that number first.  Each field is a word
that is stored and read on its own.  A thread does one of these things in an atomic
step, and the steps of different threads interleave in any order.
-/

namespace Lockstep

/-- What the components resolve to in a storage. -/
def Storage.resolution (s : Storage) (components : List ComponentId) :
    Except StorageError ResolvedQuery :=
  (s.queries.resolve components s.archetypes.toList).1

inductive QueryField where
  | offset
  | numComponents
  | numMatching
deriving DecidableEq

/-- Where a caller stands. -/
inductive QueryCaller where
  | check
  | acquire
  | recheck
  | resolve
  | storeOffset (resolved : ResolvedQuery)
  | storeNumComponents (resolved : ResolvedQuery)
  | storeNumMatching (resolved : ResolvedQuery)
  | release (result : Except StorageError Unit)
  | returned (result : Except StorageError Unit)

namespace QueryCaller

/-- Whether the caller has taken the lock and not given it back. -/
def isInside : QueryCaller → Bool
  | check | acquire | returned _ => false
  | _ => true

/-- Whether the caller has found no room for the matches. -/
def isRefused : QueryCaller → Bool
  | release (.error (.queryDataFull _)) => true
  | returned (.error (.queryDataFull _)) => true
  | _ => false

end QueryCaller

/-- Where a reader stands. -/
inductive QueryReader where
  | check
  | readOffset (numMatching : UInt32)
  | readNumComponents (numMatching offset : UInt32)
  | returned (seen : Option QueryRef)
deriving DecidableEq

inductive QueryThread where
  | caller (index : Nat)
  | reader (index : Nat)
deriving DecidableEq

structure QueryPublication where
  components : List ComponentId
  storage : Storage
  ref : QueryRef
  holder : Option Nat
  callers : Array QueryCaller
  readers : Array QueryReader
  /-- The fields stored so far, the last one first. -/
  stores : List QueryField

namespace QueryPublication

def start (storage : Storage) (components : List ComponentId) (numCallers numReaders : Nat) :
    QueryPublication where
  components
  storage
  ref := .unresolved
  holder := none
  callers := Array.replicate numCallers .check
  readers := Array.replicate numReaders .check
  stores := []

def moveCaller (p : QueryPublication) (i : Nat) (caller : QueryCaller) : QueryPublication :=
  { p with callers := p.callers.setIfInBounds i caller }

def moveReader (p : QueryPublication) (i : Nat) (reader : QueryReader) : QueryPublication :=
  { p with readers := p.readers.setIfInBounds i reader }

def store (p : QueryPublication) (field : QueryField) (ref : QueryRef) : QueryPublication :=
  { p with ref, stores := field :: p.stores }

def callerStep (p : QueryPublication) (i : Nat) : QueryCaller → QueryPublication
  | .check =>
      if p.ref.isResolved then p.moveCaller i (.returned (.ok ()))
      else
        match p.components.find? (!p.storage.registry.isRegistered ·) with
        | some id => p.moveCaller i (.returned (.error (.unknownComponent id)))
        | none => p.moveCaller i .acquire
  | .acquire =>
      match p.holder with
      | some _ => p
      | none => { p with holder := some i }.moveCaller i .recheck
  | .recheck =>
      p.moveCaller i (if p.ref.isResolved then .release (.ok ()) else .resolve)
  | .resolve =>
      let (result, queries) := p.storage.queries.resolve p.components p.storage.archetypes.toList
      let p := { p with storage := { p.storage with queries } }
      match result with
      | .ok resolved => p.moveCaller i (.storeOffset resolved)
      | .error error => p.moveCaller i (.release (.error error))
  | .storeOffset resolved =>
      (p.store .offset { p.ref with offset := resolved.offset }).moveCaller i
        (.storeNumComponents resolved)
  | .storeNumComponents resolved =>
      (p.store .numComponents { p.ref with
        numComponents := resolved.numComponents }).moveCaller i (.storeNumMatching resolved)
  | .storeNumMatching resolved =>
      (p.store .numMatching { p.ref with
        numMatching := resolved.numMatching }).moveCaller i (.release (.ok ()))
  | .release result => { p with holder := none }.moveCaller i (.returned result)
  | .returned _ => p

def readerStep (p : QueryPublication) (i : Nat) : QueryReader → QueryPublication
  | .check =>
      p.moveReader i (if p.ref.isResolved then .readOffset p.ref.numMatching else .returned none)
  | .readOffset matching => p.moveReader i (.readNumComponents matching p.ref.offset)
  | .readNumComponents matching offset =>
      p.moveReader i (.returned (some ⟨offset, p.ref.numComponents, matching⟩))
  | .returned _ => p

/-- The next step of a thread.  A thread that waits for the lock, or has returned,
stays where it is. -/
def step (p : QueryPublication) : QueryThread → QueryPublication
  | .caller i =>
      match p.callers[i]? with
      | some caller => p.callerStep i caller
      | none => p
  | .reader i =>
      match p.readers[i]? with
      | some reader => p.readerStep i reader
      | none => p

/-- The number of callers that have found no room for the matches. -/
def refusals (p : QueryPublication) : Nat := p.callers.toList.countP (·.isRefused)

def follow (p : QueryPublication) (schedule : List QueryThread) : QueryPublication :=
  schedule.foldl step p

end QueryPublication
end Lockstep
