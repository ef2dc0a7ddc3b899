import Lockstep.Config.State
import Lockstep.Json.Codec

/-!
# Engine configuration

The shape of a launch, the sizes of its buffers and the capacities of its
storage.
-/

namespace Lockstep

/-- How many lanes work, and how they are grouped: lanes of one group move in
lock-step, groups of one block share a barrier. -/
structure LaunchConfig where
  numBlocks : UInt32
  groupsPerBlock : UInt32
  lanesPerGroup : UInt32
deriving DecidableEq

structure TraceConfig where
  enabled : Bool
  capacity : UInt32
deriving DecidableEq

structure EngineConfig where
  state : StateConfig
  launch : LaunchConfig
  worldDataBytes : UInt32
  worldDataAlign : UInt32
  tmpAllocBytes : UInt64
  printCapacity : UInt32
  trace : TraceConfig
deriving DecidableEq

inductive EngineConfigIssue where
  | noBlocks
  | noGroups
  | laneCount (lanes : UInt32)
  | worldAlign (align : UInt32)
  | foreignStorage
deriving DecidableEq

inductive FileIssue where
  | missing
  | notText
deriving DecidableEq

inductive EngineError where
  | invalidConfig (issue : EngineConfigIssue)
  | storage (error : StorageError)
  | unknownFunction (node : NodeId) (func : FuncId)
  | missingCount (node : NodeId)
  | invalidThreads (node : NodeId) (threads lanesPerGroup : UInt32) (blockThreads : Nat)
  | file (issue : FileIssue)
  | json (error : JsonError)
deriving DecidableEq

def maxLanesPerGroup : UInt32 := 64

namespace EngineConfigIssue

def message : EngineConfigIssue → String
  | noBlocks => "num_blocks must be at least 1"
  | noGroups => "groups_per_block must be at least 1"
  | laneCount lanes => s!"lanes_per_group must be in 1..={maxLanesPerGroup}, got {lanes}"
  | worldAlign align => s!"world_data_align must be a power of two, got {align}"
  | foreignStorage => "state manager was built with a different StateConfig"

end EngineConfigIssue

namespace FileIssue

def message : FileIssue → String
  | missing => "No such file or directory (os error 2)"
  | notText => "stream did not contain valid UTF-8"

end FileIssue

namespace JsonError

def message : JsonError → String
  | malformed => "the text is no JSON"
  | mistyped => "a value is not of the kind asked for"
  | truncated => "the text ends too early"

end JsonError

namespace EngineError

/-- The name of the kind of error.  An error of the storage keeps its own. -/
def kind : EngineError → String
  | invalidConfig .. => "InvalidConfig"
  | storage error => error.kind
  | unknownFunction .. => "UnknownFunction"
  | missingCount .. => "MissingCount"
  | invalidThreads .. => "InvalidThreadsPerInvocation"
  | file .. => "Io"
  | json .. => "Json"

def message : EngineError → String
  | invalidConfig issue => s!"invalid engine configuration: {issue.message}"
  | storage error => error.message
  | unknownFunction node func => s!"node {node} refers to unregistered function {func}"
  | missingCount node => s!"node {node} is dynamic but has no count accessor"
  | invalidThreads node threads lanesPerGroup blockThreads =>
      s!"node {node} uses {threads} threads per invocation, which does not tile " ++
        s!"groups of {lanesPerGroup} lanes or blocks of {blockThreads} lanes"
  | file issue => s!"i/o error: {issue.message}"
  | json error => s!"malformed config: {error.message}"

end EngineError

namespace LaunchConfig

def default : LaunchConfig := ⟨1, 4, 32⟩

def blockThreads (c : LaunchConfig) : Except Fault Nat :=
  Word.mul Word.size32 c.groupsPerBlock.toNat c.lanesPerGroup.toNat

def totalGroups (c : LaunchConfig) : Except Fault Nat :=
  Word.mul Word.size32 c.numBlocks.toNat c.groupsPerBlock.toNat

def issue? (c : LaunchConfig) : Option EngineConfigIssue :=
  if c.numBlocks = 0 then some .noBlocks
  else if c.groupsPerBlock = 0 then some .noGroups
  else if c.lanesPerGroup = 0 ∨ maxLanesPerGroup < c.lanesPerGroup then
    some (.laneCount c.lanesPerGroup)
  else none

def form : Json.RecordForm LaunchConfig where
  fields := [
    .of "num_blocks" .uint32 numBlocks fun c n => { c with numBlocks := n },
    .of "groups_per_block" .uint32 groupsPerBlock fun c n => { c with groupsPerBlock := n },
    .of "lanes_per_group" .uint32 lanesPerGroup fun c n => { c with lanesPerGroup := n }]
  initial := default
  complete := false

instance : ToString LaunchConfig :=
  ⟨fun c => RecordText.record "LaunchConfig"
    [("num_blocks", toString c.numBlocks), ("groups_per_block", toString c.groupsPerBlock),
      ("lanes_per_group", toString c.lanesPerGroup)]⟩

end LaunchConfig

namespace TraceConfig

def default : TraceConfig := ⟨true, 65536⟩

def form : Json.RecordForm TraceConfig where
  fields := [
    .of "enabled" .bool enabled fun c b => { c with enabled := b },
    .of "capacity" .uint32 capacity fun c n => { c with capacity := n }]
  initial := default
  complete := false

instance : ToString TraceConfig :=
  ⟨fun c => RecordText.record "TraceConfig"
    [("enabled", toString c.enabled), ("capacity", toString c.capacity)]⟩

end TraceConfig

namespace StateConfig

def form : Json.RecordForm StateConfig where
  fields := [
    .of "num_worlds" .uint32 numWorlds fun c n => { c with numWorlds := n },
    .of "max_rows_per_table" .uint32 maxRowsPerTable fun c n => { c with maxRowsPerTable := n },
    .of "max_components" .uint32 maxComponents fun c n => { c with maxComponents := n },
    .of "max_archetypes" .uint32 maxArchetypes fun c n => { c with maxArchetypes := n },
    .of "max_archetype_components" .uint32 maxArchetypeComponents
      fun c n => { c with maxArchetypeComponents := n },
    .of "max_query_data" .uint32 maxQueryData fun c n => { c with maxQueryData := n },
    .of "max_entities" .uint32 maxEntities fun c n => { c with maxEntities := n }]
  initial := default
  complete := false

end StateConfig

namespace EngineConfig

def default : EngineConfig where
  state := .default
  launch := .default
  worldDataBytes := 0
  worldDataAlign := 16
  tmpAllocBytes := 1048576
  printCapacity := 1024
  trace := .default

def worldDataStride (c : EngineConfig) : Nat :=
  Word.alignUp c.worldDataBytes.toNat c.worldDataAlign.toNat

/-- Checks the storage first, then the launch shape, then the alignment. -/
def validate (c : EngineConfig) : Except EngineError Unit :=
  match c.state.issue? with
  | some issue => .error (.storage (.invalidConfig issue))
  | none =>
      match c.launch.issue? with
      | some issue => .error (.invalidConfig issue)
      | none =>
          if Word.isPowerOfTwo c.worldDataAlign.toNat then .ok ()
          else .error (.invalidConfig (.worldAlign c.worldDataAlign))

def form : Json.RecordForm EngineConfig where
  fields := [
    .of "state" StateConfig.form.codec state fun c s => { c with state := s },
    .of "launch" LaunchConfig.form.codec launch fun c l => { c with launch := l },
    .of "world_data_bytes" .uint32 worldDataBytes fun c n => { c with worldDataBytes := n },
    .of "world_data_align" .uint32 worldDataAlign fun c n => { c with worldDataAlign := n },
    .of "tmp_alloc_bytes" .uint64 tmpAllocBytes fun c n => { c with tmpAllocBytes := n },
    .of "print_capacity" .uint32 printCapacity fun c n => { c with printCapacity := n },
    .of "trace" TraceConfig.form.codec trace fun c t => { c with trace := t }]
  initial := default
  complete := false

def ofJson (text : String) : Except EngineError EngineConfig := do
  match form.codec.parse text with
  | .error e => throw (.json e)
  | .ok config =>
      config.validate
      return config

def ofFile (contents : Option ByteArray) : Except EngineError EngineConfig :=
  match contents with
  | none => .error (.file .missing)
  | some bytes =>
      match String.fromUTF8? bytes with
      | none => .error (.file .notText)
      | some text => ofJson text

instance : ToString EngineConfig :=
  ⟨fun c => RecordText.record "EngineConfig"
    [("state", toString c.state), ("launch", toString c.launch),
      ("world_data_bytes", toString c.worldDataBytes),
      ("world_data_align", toString c.worldDataAlign),
      ("tmp_alloc_bytes", toString c.tmpAllocBytes),
      ("print_capacity", toString c.printCapacity), ("trace", toString c.trace)]⟩

end EngineConfig
end Lockstep
