import Lockstep.Config.Engine
import Lockstep.Json.Grammar
import Mathlib.Algebra.Order.Ring.Nat

/-!
# Settings over defaults

A patch holds some of the settings of a configuration.  Laid onto a configuration, it replaces
these and leaves the others, inside the groups of settings, too.  The rules of a configuration are
in the order in which they are checked.
-/

namespace Lockstep

open Json

structure StatePatch where
  numWorlds : Option UInt32 := none
  maxRowsPerTable : Option UInt32 := none
  maxComponents : Option UInt32 := none
  maxArchetypes : Option UInt32 := none
  maxArchetypeComponents : Option UInt32 := none
  maxQueryData : Option UInt32 := none
  maxEntities : Option UInt32 := none

namespace StatePatch

def onto (p : StatePatch) (c : StateConfig) : StateConfig where
  numWorlds := p.numWorlds.getD c.numWorlds
  maxRowsPerTable := p.maxRowsPerTable.getD c.maxRowsPerTable
  maxComponents := p.maxComponents.getD c.maxComponents
  maxArchetypes := p.maxArchetypes.getD c.maxArchetypes
  maxArchetypeComponents := p.maxArchetypeComponents.getD c.maxArchetypeComponents
  maxQueryData := p.maxQueryData.getD c.maxQueryData
  maxEntities := p.maxEntities.getD c.maxEntities

def entries (p : StatePatch) : List Entry := [
  .number UInt32.toNat "num_worlds" p.numWorlds,
  .number UInt32.toNat "max_rows_per_table" p.maxRowsPerTable,
  .number UInt32.toNat "max_components" p.maxComponents,
  .number UInt32.toNat "max_archetypes" p.maxArchetypes,
  .number UInt32.toNat "max_archetype_components" p.maxArchetypeComponents,
  .number UInt32.toNat "max_query_data" p.maxQueryData,
  .number UInt32.toNat "max_entities" p.maxEntities]

end StatePatch

structure LaunchPatch where
  numBlocks : Option UInt32 := none
  groupsPerBlock : Option UInt32 := none
  lanesPerGroup : Option UInt32 := none

namespace LaunchPatch

def onto (p : LaunchPatch) (c : LaunchConfig) : LaunchConfig where
  numBlocks := p.numBlocks.getD c.numBlocks
  groupsPerBlock := p.groupsPerBlock.getD c.groupsPerBlock
  lanesPerGroup := p.lanesPerGroup.getD c.lanesPerGroup

def entries (p : LaunchPatch) : List Entry := [
  .number UInt32.toNat "num_blocks" p.numBlocks,
  .number UInt32.toNat "groups_per_block" p.groupsPerBlock,
  .number UInt32.toNat "lanes_per_group" p.lanesPerGroup]

end LaunchPatch

structure TracePatch where
  enabled : Option Bool := none
  capacity : Option UInt32 := none

namespace TracePatch

def onto (p : TracePatch) (c : TraceConfig) : TraceConfig where
  enabled := p.enabled.getD c.enabled
  capacity := p.capacity.getD c.capacity

def entries (p : TracePatch) : List Entry := [
  .flag "enabled" p.enabled,
  .number UInt32.toNat "capacity" p.capacity]

end TracePatch

structure EnginePatch where
  state : Option StatePatch := none
  launch : Option LaunchPatch := none
  worldDataBytes : Option UInt32 := none
  worldDataAlign : Option UInt32 := none
  tmpAllocBytes : Option UInt64 := none
  printCapacity : Option UInt32 := none
  trace : Option TracePatch := none

namespace EnginePatch

def onto (p : EnginePatch) (c : EngineConfig) : EngineConfig where
  state := p.state.elim c.state (·.onto c.state)
  launch := p.launch.elim c.launch (·.onto c.launch)
  worldDataBytes := p.worldDataBytes.getD c.worldDataBytes
  worldDataAlign := p.worldDataAlign.getD c.worldDataAlign
  tmpAllocBytes := p.tmpAllocBytes.getD c.tmpAllocBytes
  printCapacity := p.printCapacity.getD c.printCapacity
  trace := p.trace.elim c.trace (·.onto c.trace)

def entries (p : EnginePatch) : List Entry := [
  .object StatePatch.entries "state" p.state,
  .object LaunchPatch.entries "launch" p.launch,
  .number UInt32.toNat "world_data_bytes" p.worldDataBytes,
  .number UInt32.toNat "world_data_align" p.worldDataAlign,
  .number UInt64.toNat "tmp_alloc_bytes" p.tmpAllocBytes,
  .number UInt32.toNat "print_capacity" p.printCapacity,
  .object TracePatch.entries "trace" p.trace]

end EnginePatch

/-- What has to hold, and the error if it does not. -/
structure ConfigRule where
  holds : Prop
  error : EngineError

namespace EngineConfig

def rules (c : EngineConfig) : List ConfigRule := [
  ⟨1 ≤ c.state.numWorlds.toNat, .storage (.invalidConfig .noWorlds)⟩,
  ⟨2 ≤ c.state.maxComponents.toNat, .storage (.invalidConfig .noRoomForBuiltins)⟩,
  ⟨1 ≤ c.state.maxRowsPerTable.toNat, .storage (.invalidConfig .noRows)⟩,
  ⟨1 ≤ c.launch.numBlocks.toNat, .invalidConfig .noBlocks⟩,
  ⟨1 ≤ c.launch.groupsPerBlock.toNat, .invalidConfig .noGroups⟩,
  ⟨1 ≤ c.launch.lanesPerGroup.toNat ∧ c.launch.lanesPerGroup.toNat ≤ 64,
    .invalidConfig (.laneCount c.launch.lanesPerGroup)⟩,
  ⟨∃ k, c.worldDataAlign.toNat = 2 ^ k, .invalidConfig (.worldAlign c.worldDataAlign)⟩]

end EngineConfig
end Lockstep
