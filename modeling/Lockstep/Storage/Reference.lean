import Lockstep.Storage.History
import Lockstep.Table.History

/-!
# Storages with a reference of their own

A storage that is reached by its own calls and by those of its tables, together with a query
reference that is resolved by no other storage.
-/

namespace Lockstep
namespace Storage

inductive ReachableWith (config : StateConfig) : Storage → QueryRef → Prop
  | new {s : Storage} (h : Storage.new config = .ok s) : ReachableWith config s .unresolved
  /-- A call that is not about the reference. -/
  | call {s : Storage} {ref : QueryRef} (h : ReachableWith config s ref) (call : StorageCall) :
      ReachableWith config (s.perform call).2 ref
  /-- A request that is made through the reference. -/
  | request {s : Storage} {ref : QueryRef} (h : ReachableWith config s ref)
      (components : List ComponentId) :
      ReachableWith config (s.makeQuery components ref).2.2 (s.makeQuery components ref).2.1
  | table {s : Storage} {ref : QueryRef} {a : ArchetypeId} {archetype : Archetype}
      (h : ReachableWith config s ref) (ha : s.archetype a = .ok archetype) (call : TableCall) :
      ReachableWith config (s.setTable a (archetype.table.perform call).2) ref

/-- The number of live rows of the archetype at an index. -/
def rowsAt (s : Storage) (i : Nat) : Nat := (s.archetypes[i]?.map (·.numRows)).getD 0

end Storage
end Lockstep
