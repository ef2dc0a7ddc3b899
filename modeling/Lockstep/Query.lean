import Lockstep.Archetype

/-!
# Queries

A query turns a list of components into every archetype that has all of them,
with the column of each.  The matches of all queries lie one after another in a
shared buffer of words,

    archetype, column, .., column, archetype, column, .., column, ..

and are described by an offset and two counts.  Each list of components is
looked up once: later requests for it are answered from memory.
-/

namespace Lockstep

structure ResolvedQuery where
  offset : UInt32
  numMatching : UInt32
  numComponents : UInt32
deriving DecidableEq

namespace ResolvedQuery

def stride (q : ResolvedQuery) : Nat := q.numComponents + 1

end ResolvedQuery

/-- A caller's reference to a query, one word for each field.  It is resolved once
the number of matches has been published, which happens after the other fields are
in place. -/
structure QueryRef where
  offset : UInt32
  numComponents : UInt32
  numMatching : UInt32
deriving DecidableEq

namespace QueryRef

/-- The largest word.  In the place of the number of matches it says that the query
is not resolved. -/
def mark : UInt32 := 0xFFFFFFFF

def unresolved : QueryRef := ⟨0, 0, mark⟩

def isResolved (q : QueryRef) : Bool := q.numMatching != mark

def resolved? (q : QueryRef) : Option ResolvedQuery :=
  if q.isResolved then some ⟨q.offset, q.numMatching, q.numComponents⟩ else none

/-- The fields of a query, stored.  If the number of matches is the mark, then the
reference still counts as not resolved. -/
def publish (resolved : ResolvedQuery) : QueryRef :=
  ⟨resolved.offset, resolved.numComponents, resolved.numMatching⟩

@[simp]
theorem isResolved_unresolved : unresolved.isResolved = false := rfl

theorem isResolved_publish {resolved : ResolvedQuery} :
    (publish resolved).isResolved = true ↔ resolved.numMatching ≠ mark := bne_iff_ne

theorem resolved?_of_isResolved {q : QueryRef} (h : q.isResolved = true) :
    q.resolved? = some ⟨q.offset, q.numMatching, q.numComponents⟩ := if_pos h

theorem resolved?_of_unresolved {q : QueryRef} (h : q.isResolved = false) :
    q.resolved? = none := if_neg (Bool.eq_false_iff.1 h)

/-- What is read from a reference is what was published. -/
theorem eq_of_resolved?_publish {resolved resolved' : ResolvedQuery}
    (h : (publish resolved).resolved? = some resolved') : resolved' = resolved := by
  unfold resolved? at h
  split at h
  · exact (Option.some.inj h).symm
  · contradiction

end QueryRef

structure QueryMatch where
  archetype : Nat
  columns : List Nat
deriving DecidableEq

namespace QueryMatch

def words (m : QueryMatch) : List Nat := m.archetype :: m.columns

def ofWords? : List Nat → Option QueryMatch
  | [] => none
  | archetype :: columns => some ⟨archetype, columns⟩

end QueryMatch

structure QueryCache where
  data : Array Nat
  maxData : UInt32
  bySignature : List (List ComponentId × ResolvedQuery)
  scans : Nat

namespace QueryCache

def empty (maxData : UInt32) : QueryCache := ⟨#[], maxData, [], 0⟩

def scan (components : List ComponentId) (archetypes : List Archetype) : List QueryMatch :=
  archetypes.zipIdx.filterMap fun (archetype, index) =>
    if components.all archetype.hasComponent then
      some ⟨index, components.filterMap archetype.columnIndex⟩
    else none

/-- Resolves a list of components.  A search counts even when its matches do not
fit the buffer. -/
def resolve (cache : QueryCache) (components : List ComponentId)
    (archetypes : List Archetype) : Except StorageError ResolvedQuery × QueryCache :=
  match cache.bySignature.lookup components with
  | some hit => (.ok hit, cache)
  | none =>
      let cache := { cache with scans := cache.scans + 1 }
      let found := scan components archetypes
      let words := found.flatMap QueryMatch.words
      let offset := UInt32.ofNat cache.data.size
      if cache.maxData.toNat < offset.toNat + words.length then
        (.error (.queryDataFull cache.maxData), cache)
      else
        let resolved := ⟨offset, .ofNat found.length, .ofNat components.length⟩
        (.ok resolved,
          { cache with
            data := cache.data ++ words.toArray
            bySignature := (components, resolved) :: cache.bySignature })

def matchesOf (cache : QueryCache) (q : ResolvedQuery) : List QueryMatch :=
  (List.range q.numMatching).filterMap fun i =>
    let start := q.offset.toNat + i * q.stride
    QueryMatch.ofWords? (cache.data.extract start (start + q.stride)).toList

end QueryCache
end Lockstep
