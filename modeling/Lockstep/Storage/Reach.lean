import Lockstep.Storage.History

/-!
# Reachable storages

A storage is reached by its own calls, and by what its tables let others do to them: cells
are overwritten in a table, and columns are told to commit rows.
-/

namespace Lockstep
namespace Storage

inductive Reachable (config : StateConfig) : Storage → Prop
  | new {s : Storage} (h : Storage.new config = .ok s) : Reachable config s
  | call {s : Storage} (h : Reachable config s) (call : StorageCall) :
      Reachable config (s.perform call).2
  | write {s : Storage} {a : ArchetypeId} {archetype : Archetype} {col row : Nat} {value : Value}
      {table : Table} (h : Reachable config s) (ha : s.archetype a = .ok archetype)
      (hwrite : archetype.table.write col row value = .ok table) :
      Reachable config (s.setTable a table)
  | commit {s : Storage} {a : ArchetypeId} {archetype : Archetype} {col rows : Nat}
      {table : Table} (h : Reachable config s) (ha : s.archetype a = .ok archetype)
      (hcommit : archetype.table.commit col rows = .ok (some table)) :
      Reachable config (s.setTable a table)

end Storage
end Lockstep
