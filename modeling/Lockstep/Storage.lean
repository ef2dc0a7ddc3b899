import Lockstep.Component.Registry
import Lockstep.Config.State
import Lockstep.Entity.Store
import Lockstep.Query

/-!
# Storage

All entities, components and archetypes of a run.  Components and archetypes
are registered first; rows, entities and queries come and go after that.
-/

namespace Lockstep

structure Storage where
  config : StateConfig
  registry : ComponentRegistry
  archetypes : Array Archetype
  archetypeComponents : Array ComponentId
  queries : QueryCache
  entities : EntityStore

namespace Storage

def new (config : StateConfig) : Except StorageError Storage := do
  config.validate
  return {
    config
    registry := .builtins config.maxComponents
    archetypes := #[]
    archetypeComponents := #[]
    queries := .empty config.maxQueryData
    entities := .empty config.maxEntities }

def registerComponent (s : Storage) (info : TypeInfo) :
    Except StorageError (ComponentId × Storage) := do
  let (id, registry) ← s.registry.register info
  return (id, { s with registry })

def registerComponentWithId (s : Storage) (id : ComponentId) (info : TypeInfo) :
    Except StorageError Storage := do
  return { s with registry := ← s.registry.registerWithId id info }

def registerComponentType (s : Storage) (type : ValueType) :
    Except StorageError (ComponentId × Storage) := do
  let (id, registry) ← s.registry.registerType type
  return (id, { s with registry })

/-- The layouts of components that may form an archetype together: none is built
in, none comes twice, and each is registered. -/
def userInfos (s : Storage) (seen : List ComponentId) :
    List ComponentId → Except StorageError (List TypeInfo)
  | [] => .ok []
  | id :: rest =>
      if id.isBuiltin || seen.contains id then .error (.duplicateArchetypeComponent id)
      else
        match s.registry.info? id with
        | none => .error (.unknownComponent id)
        | some info => do
            return info :: (← s.userInfos (id :: seen) rest)

def checkArchetype (s : Storage) (components : List ComponentId) :
    Except StorageError (List TypeInfo) :=
  if s.config.maxArchetypes.toNat ≤ s.archetypes.size then
    .error (.archetypeCapacity s.config.maxArchetypes)
  else if s.config.maxArchetypeComponents.toNat
      < s.archetypeComponents.size + components.length then
    .error (.archetypeComponentCapacity s.config.maxArchetypeComponents)
  else s.userInfos [] components

/-- Registers an archetype of `components` and the two built-in columns.  The
call faults when no memory layout describes one of its columns. -/
def registerArchetype (s : Storage) (components : List ComponentId) :
    Except Fault (Except StorageError (ArchetypeId × Storage)) :=
  match s.checkArchetype components with
  | .error e => .ok (.error e)
  | .ok infos => do
      let table ← Table.new (Archetype.columnInfos infos) s.config.maxRowsPerTable
        s.config.numWorlds
      return .ok (⟨UInt32.ofNat s.archetypes.size⟩,
        { s with
          archetypes := s.archetypes.push ⟨s.archetypeComponents.size, components, table⟩
          archetypeComponents := s.archetypeComponents ++ components.toArray })

def archetype (s : Storage) (id : ArchetypeId) : Except StorageError Archetype :=
  match s.archetypes[id.index]? with
  | some archetype => .ok archetype
  | none => .error (.unknownArchetype id)

def setTable (s : Storage) (id : ArchetypeId) (table : Table) : Storage :=
  { s with archetypes := s.archetypes.modify id.index ({ · with table }) }

def componentsOf (s : Storage) (id : ArchetypeId) : Except StorageError (List ComponentId) := do
  let archetype ← s.archetype id
  let start := archetype.componentOffset
  return (s.archetypeComponents.extract start (start + archetype.userComponents.length)).toList

def numRows (s : Storage) (id : ArchetypeId) : Except StorageError Nat := do
  return (← s.archetype id).numRows

/-- Forgets all rows of an archetype.  Entities that lived there are gone, yet
their slots stay taken. -/
def clearTemporaries (s : Storage) (id : ArchetypeId) : Except StorageError Storage := do
  return s.setTable id (← s.archetype id).table.clear

/-- Resolves a reference, once: a resolved reference stays as it is. -/
def makeQuery (s : Storage) (components : List ComponentId) (ref : QueryRef) :
    Except StorageError Unit × QueryRef × Storage :=
  if ref.isResolved then (.ok (), ref, s)
  else
    match components.find? (!s.registry.isRegistered ·) with
    | some id => (.error (.unknownComponent id), ref, s)
    | none =>
        match s.queries.resolve components s.archetypes.toList with
        | (.ok resolved, queries) => (.ok (), .publish resolved, { s with queries })
        | (.error e, queries) => (.error e, ref, { s with queries })

def scanCount (s : Storage) : Nat := s.queries.scans

def queryMatches (s : Storage) (ref : QueryRef) : Except StorageError (List QueryMatch) :=
  match ref.resolved? with
  | some resolved => .ok (s.queries.matchesOf resolved)
  | none => .error .unresolvedQuery

def queryRowCount (s : Storage) (ref : QueryRef) : Except StorageError Nat := do
  let found ← s.queryMatches ref
  return (found.map fun m => (s.archetypes[m.archetype]?.map (·.numRows)).getD 0).foldr (· + ·) 0

/-- Where a live entity lives.  Its row has to be in use and to name the entity
as its owner, so that handles to cleared rows are recognised. -/
def entityLocation (s : Storage) (e : Entity) : Option EntityLocation := do
  let location ← s.entities.location? e
  let archetype ← s.archetypes[location.archetype.index]?
  match archetype.table.get Archetype.entityColumn location.row .entity with
  | .ok (some owner) => if Entity.ofBytes owner.bytes = e then some location else none
  | _ => none

def isValid (s : Storage) (e : Entity) : Bool := (s.entityLocation e).isSome

def numEntities (s : Storage) : Nat := s.entities.liveCount

def claimRow (table : Table) (row : Nat) (e : Entity) (world : WorldId) : Except Fault Table := do
  let table ← table.write Archetype.entityColumn row (.ofEntity e)
  table.write Archetype.worldIdColumn row (.ofWorldId world)

/-- Makes an entity with a row of its own.  Its other components keep what the
row held before.  When the table is full the entity's slot is given back. -/
def makeEntity (s : Storage) (id : ArchetypeId) (world : WorldId) :
    Except StorageError Entity × Storage :=
  match s.archetype id with
  | .error e => (.error e, s)
  | .ok archetype =>
      match s.entities.allocate with
      | none => (.error (.entityCapacity s.config.maxEntities), s)
      | some (entity, entities) =>
          match archetype.table.allocRow with
          | .error e =>
              (.error e, { s with entities := (entities.release? entity).getD entities })
          | .ok (row, table) =>
              let table := (claimRow table row entity world).toOption.getD table
              let entities := (entities.setLocation? entity ⟨id, row⟩).getD entities
              (.ok entity, { s.setTable id table with entities })

/-- Frees the slot of an entity; a stale handle is refused.  The row stays in
the table until the table is cleared. -/
def destroyEntity? (s : Storage) (e : Entity) : Option Storage :=
  (s.entities.release? e).map ({ s with entities := · })

def locateComponent (s : Storage) (e : Entity) (component : ComponentId) (info : TypeInfo) :
    Except StorageError (EntityLocation × Archetype × Nat) :=
  match s.entityLocation e with
  | none => .error (.staleEntity e)
  | some location => do
      let archetype ← s.archetype location.archetype
      match archetype.columnIndex component with
      | none => .error (.missingComponent e component)
      | some col =>
          match archetype.table.typedColumn col info with
          | .ok _ => .ok (location, archetype, col)
          | .error _ => .error (.componentTypeMismatch component)

def getComponent (s : Storage) (e : Entity) (component : ComponentId) (info : TypeInfo) :
    Except StorageError Value := do
  let (location, archetype, col) ← s.locateComponent e component info
  match archetype.table.get col location.row info with
  | .ok (some value) => .ok value
  | _ => .error (.staleEntity e)

def setComponent (s : Storage) (e : Entity) (component : ComponentId) (value : Value) :
    Except StorageError Storage := do
  let (location, archetype, col) ← s.locateComponent e component value.info
  match archetype.table.set col location.row value with
  | .ok (some table) => .ok (s.setTable location.archetype table)
  | _ => .error (.staleEntity e)

end Storage
end Lockstep
