import Lockstep.RecordText
import Lockstep.StorageError

/-!
# Storage configuration

The capacities of the storage engine.
-/

namespace Lockstep

structure StateConfig where
  numWorlds : UInt32
  /-- The rows that each table reserves, across all worlds. -/
  maxRowsPerTable : UInt32
  maxComponents : UInt32
  maxArchetypes : UInt32
  maxArchetypeComponents : UInt32
  maxQueryData : UInt32
  maxEntities : UInt32
deriving DecidableEq

namespace StateConfig

def default : StateConfig where
  numWorlds := 1
  maxRowsPerTable := 65536
  maxComponents := 128
  maxArchetypes := 64
  maxArchetypeComponents := 512
  maxQueryData := 4096
  maxEntities := 65536

/-- The first thing that the storage engine cannot honour. -/
def issue? (c : StateConfig) : Option StateConfigIssue :=
  if c.numWorlds = 0 then some .noWorlds
  else if c.maxComponents < 2 then some .noRoomForBuiltins
  else if c.maxRowsPerTable = 0 then some .noRows
  else none

def validate (c : StateConfig) : Except StorageError Unit :=
  match c.issue? with
  | some issue => .error (.invalidConfig issue)
  | none => .ok ()

instance : ToString StateConfig :=
  ⟨fun c => RecordText.record "StateConfig"
    [("num_worlds", toString c.numWorlds),
      ("max_rows_per_table", toString c.maxRowsPerTable),
      ("max_components", toString c.maxComponents),
      ("max_archetypes", toString c.maxArchetypes),
      ("max_archetype_components", toString c.maxArchetypeComponents),
      ("max_query_data", toString c.maxQueryData),
      ("max_entities", toString c.maxEntities)]⟩

end StateConfig
end Lockstep
