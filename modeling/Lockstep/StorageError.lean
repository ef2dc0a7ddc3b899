import Lockstep.Entity

/-!
# Storage errors

What the storage engine refuses, each with its cause.
-/

namespace Lockstep

inductive StateConfigIssue where
  | noWorlds
  | noRoomForBuiltins
  | noRows
deriving DecidableEq

namespace StateConfigIssue

def message : StateConfigIssue → String
  | noWorlds => "num_worlds must be at least 1"
  | noRoomForBuiltins => "max_components must leave room for Entity and WorldId"
  | noRows => "max_rows_per_table must be at least 1"

end StateConfigIssue

inductive StorageError where
  | invalidConfig (issue : StateConfigIssue)
  | invalidLayout (alignment numBytes : UInt32)
  | duplicateComponent (id : ComponentId)
  | unknownComponent (id : ComponentId)
  | componentCapacity (max : UInt32)
  | duplicateArchetypeComponent (id : ComponentId)
  | archetypeCapacity (max : UInt32)
  | archetypeComponentCapacity (max : UInt32)
  | unknownArchetype (id : ArchetypeId)
  | tableFull (maxRows : Nat)
  | queryDataFull (max : UInt32)
  | unresolvedQuery
  | entityCapacity (max : UInt32)
  | staleEntity (entity : Entity)
  | missingComponent (entity : Entity) (component : ComponentId)
  | componentTypeMismatch (component : ComponentId)
deriving DecidableEq

namespace StorageError

/-- The name of the kind of error. -/
def kind : StorageError → String
  | invalidConfig .. => "InvalidConfig"
  | invalidLayout .. => "InvalidLayout"
  | duplicateComponent .. => "DuplicateComponent"
  | unknownComponent .. => "UnknownComponent"
  | componentCapacity .. => "ComponentCapacity"
  | duplicateArchetypeComponent .. => "DuplicateArchetypeComponent"
  | archetypeCapacity .. => "ArchetypeCapacity"
  | archetypeComponentCapacity .. => "ArchetypeComponentCapacity"
  | unknownArchetype .. => "UnknownArchetype"
  | tableFull .. => "TableFull"
  | queryDataFull .. => "QueryDataFull"
  | unresolvedQuery => "UnresolvedQuery"
  | entityCapacity .. => "EntityCapacity"
  | staleEntity .. => "StaleEntity"
  | missingComponent .. => "MissingComponent"
  | componentTypeMismatch .. => "ComponentTypeMismatch"

def message : StorageError → String
  | invalidConfig issue => s!"invalid state configuration: {issue.message}"
  | invalidLayout alignment numBytes =>
      s!"invalid component layout (alignment {alignment}, {numBytes} bytes)"
  | duplicateComponent id => s!"component {id} is already registered"
  | unknownComponent id => s!"component {id} is not registered"
  | componentCapacity max => s!"component registry is full ({max} slots)"
  | duplicateArchetypeComponent id => s!"component {id} appears more than once in archetype"
  | archetypeCapacity max => s!"archetype limit reached ({max})"
  | archetypeComponentCapacity max => s!"archetype component array is full ({max} entries)"
  | unknownArchetype id => s!"archetype {id} does not exist"
  | tableFull maxRows => s!"table is full ({maxRows} rows)"
  | queryDataFull max => s!"query result buffer is full ({max} words)"
  | unresolvedQuery => "query has not been resolved"
  | entityCapacity max => s!"entity store is full ({max} entities)"
  | staleEntity entity => s!"entity {entity} does not exist (stale or never allocated)"
  | missingComponent entity component => s!"entity {entity} has no component {component}"
  | componentTypeMismatch component =>
      s!"component {component} does not have the layout of the requested type"

end StorageError
end Lockstep
