import Lockstep.Storage.Session
import Mathlib.Data.Finset.Dedup

/-!
# The account of the query cache

What a history of requests costs: the lists of components that were resolved, the words that
their matches take up in the buffer, and the searches that were made.
-/

namespace Lockstep

namespace StorageExchange

/-- The list of components that the exchange finds the matches of. -/
def signature? : StorageExchange → Option (List ComponentId)
  | ⟨.makeQuery components ref, .query (.ok ()) _⟩ =>
      if ref.isResolved then none else some components
  | _ => none

/-- Whether the exchange finds no room for its matches. -/
def overflows : StorageExchange → Bool
  | ⟨.makeQuery .., .query (.error (.queryDataFull _)) _⟩ => true
  | _ => false

/-- The lists of components that a history finds the matches of, each once. -/
def signatures (history : List StorageExchange) : Finset (List ComponentId) :=
  (history.filterMap signature?).toFinset

end StorageExchange

namespace Storage

/-- The number of archetypes that have all the components. -/
def numMatching (s : Storage) (components : List ComponentId) : Nat :=
  s.archetypes.toList.countP fun archetype => components.all archetype.hasComponent

/-- The words that the matches of the components take up. -/
def queryWords (s : Storage) (components : List ComponentId) : Nat :=
  s.numMatching components * (components.length + 1)

/-- The words of a list of components that was first resolved in a storage, if it was. -/
def wordsIn (first : Option Storage) (components : List ComponentId) : Nat :=
  (first.map (·.queryWords components)).getD 0

def setScans (s : Storage) (scans : Nat) : Storage :=
  { s with queries := { s.queries with scans } }

end Storage

namespace Session

def exchanges : Session → (calls : List SessionCall) → List StorageExchange
  | _, [] => []
  | t, call :: calls => t.exchange call :: exchanges (t.next call) calls

end Session
end Lockstep
