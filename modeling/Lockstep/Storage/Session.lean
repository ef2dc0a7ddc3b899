import Lockstep.Storage.History

/-!
# Sessions

A storage together with the query references of its callers, by number.  A reference starts
unresolved, and a request leaves in it what the storage makes of it.
-/

namespace Lockstep

def StorageCall.isRequest : StorageCall → Bool
  | makeQuery .. => true
  | _ => false

namespace StorageExchange

/-- Whether the exchange finds the matches of these components. -/
def resolves (components : List ComponentId) : StorageExchange → Bool
  | ⟨.makeQuery components' ref, .query (.ok ()) _⟩ => components' == components && !ref.isResolved
  | _ => false

/-- The storage before the exchange, if that finds the matches of these components. -/
def resolvedIn? (s : Storage) (components : List ComponentId) (x : StorageExchange) :
    Option Storage :=
  if x.resolves components then some s else none

end StorageExchange

inductive SessionCall where
  | makeQuery (q : Nat) (components : List ComponentId)
  | other (call : StorageCall)
deriving DecidableEq

structure Session where
  storage : Storage
  refs : Nat → QueryRef

namespace Session

def start (s : Storage) : Session := ⟨s, fun _ => .unresolved⟩

/-- The call as the storage sees it. -/
def toCall (t : Session) : SessionCall → StorageCall
  | .makeQuery q components => .makeQuery components (t.refs q)
  | .other call => call

def exchange (t : Session) (call : SessionCall) : StorageExchange :=
  ⟨t.toCall call, (t.storage.perform (t.toCall call)).1⟩

def next (t : Session) (call : SessionCall) : Session where
  storage := (t.storage.perform (t.toCall call)).2
  refs q :=
    match call, (t.exchange call).answer with
    | .makeQuery q' _, .query _ ref => if q' = q then ref else t.refs q
    | _, _ => t.refs q

def after (t : Session) (calls : List SessionCall) : Session := calls.foldl next t

/-- The components that a call resolves the reference `q` with.  Their matches are found for it,
and are not as many as the mark says. -/
def resolution? (t : Session) (q : Nat) : SessionCall → Option (List ComponentId)
  | .makeQuery q' components =>
      let call := SessionCall.makeQuery q' components
      if q' = q ∧ (t.exchange call).resolves components ∧ ((t.next call).refs q).isResolved then
        some components
      else none
  | .other _ => none

/-- The components that the reference `q` is resolved with first. -/
def signature? (q : Nat) : Session → (calls : List SessionCall) → Option (List ComponentId)
  | _, [] => none
  | t, call :: calls => (t.resolution? q call).or (signature? q (t.next call) calls)

/-- The storage in which the matches of these components are first found. -/
def firstResolved? (components : List ComponentId) :
    Session → (calls : List SessionCall) → Option Storage
  | _, [] => none
  | t, call :: calls =>
      ((t.exchange call).resolvedIn? t.storage components).or
        (firstResolved? components (t.next call) calls)

end Session
end Lockstep
