import Lockstep.Launch.Step
import Lockstep.Trace.Host

/-!
# Engine

An engine owns everything that a run needs and can be run again and again.  Each
run starts all counters anew; storage, replica data and messages carry over.
-/

namespace Lockstep

structure NodeReport where
  node : NodeId
  func : FuncId
  totalInvocations : UInt32
deriving DecidableEq

structure RunReport where
  nodes : List NodeReport
  traceEvents : Nat
  droppedTraceEvents : UInt64
deriving DecidableEq

namespace RunReport

def totalInvocations (r : RunReport) : Nat :=
  (r.nodes.map (·.totalInvocations.toNat)).foldr (· + ·) 0

end RunReport

structure RunSummary where
  report : RunReport
  prints : PrintFlush
  traceWarning : Option String

inductive RunEnd where
  | completed (summary : RunSummary)
  | faulted (fault : Fault)
  /-- The groups were still at work when the steps granted to them ran out. -/
  | unfinished

structure Engine (η : Type) where
  config : EngineConfig
  graph : TaskGraph η
  dispatcher : Dispatcher η
  layout : LaunchLayout
  device : Device η
  trace : DeviceTrace
  hostTrace : HostTrace
  runs : Nat

structure TraceFiles where
  device : Option TraceFile
  host : TraceFile

def runFuel : Nat := 0x4000000000000000

namespace Engine

variable {η : Type}

/-- Whether the threads that share an invocation of a node tile a group, or else a
block. -/
def tiles (threads lanes : UInt32) (blockThreads : Nat) : Bool :=
  Word.isPowerOfTwo threads.toNat &&
    (if threads ≤ lanes then lanes % threads == 0 else blockThreads % threads.toNat == 0)

def checkNode (c : LaunchConfig) (blockThreads : Nat) (d : Dispatcher η) (id : NodeId)
    (spec : NodeSpec η) : Except EngineError Unit :=
  if !d.contains spec.func then .error (.unknownFunction id spec.func)
  else if spec.isDynamic && !spec.data.hasCount then .error (.missingCount id)
  else if tiles spec.threadsPerInvocation c.lanesPerGroup blockThreads then .ok ()
  else .error (.invalidThreads id spec.threadsPerInvocation c.lanesPerGroup blockThreads)

def checkGraph (c : LaunchConfig) (blockThreads : Nat) (d : Dispatcher η) (g : TaskGraph η) :
    Except EngineError Unit :=
  g.specs.zipIdx.forM fun (spec, index) =>
    checkNode c blockThreads d ⟨UInt32.ofNat index⟩ spec

def new (config : EngineConfig) (shared : Shared η) (graph : TaskGraph η)
    (dispatcher : Dispatcher η) : Except Fault (Except EngineError (Engine η)) :=
  match config.validate with
  | .error e => .ok (.error e)
  | .ok () =>
      if shared.storage.config ≠ config.state then
        .ok (.error (.invalidConfig .foreignStorage))
      else do
        let blockThreads ← config.launch.blockThreads
        match checkGraph config.launch blockThreads dispatcher graph with
        | .error e => return .error e
        | .ok () =>
            let layout ← LaunchLayout.compute config
            let arena ← RunArena.new layout config.state.numWorlds
            return .ok {
              config, graph, dispatcher, layout
              device := ⟨shared, arena, .new config.printCapacity⟩
              trace := .ofConfig config.trace
              hostTrace := .empty
              runs := 0 }

def report (e : Engine η) : RunReport where
  nodes := e.graph.nodes.toList.zipIdx.map fun (node, index) =>
    ⟨⟨UInt32.ofNat index⟩, node.spec.func, node.total⟩
  traceEvents := e.trace.records.length
  droppedTraceEvents := e.trace.dropped

def note (e : Engine η) (event : HostEvent) : Engine η :=
  { e with hostTrace := e.hostTrace.record event }

def conclude (e : Engine η) : RunSummary × Engine η :=
  let (flush, print) := e.device.print.flush
  let e := { e with device := { e.device with print } }
  (⟨e.report, flush, e.trace.warning?⟩, { e.note .runEnd with runs := e.runs + 1 })

/-- A whole run.  One that faults leaves its messages in the print buffer. -/
def run (e : Engine η) : RunEnd × Engine η :=
  let e := e.note .runStart
  let e := { e with device := { e.device with arena := e.device.arena.resetTmp } }
  match e.config.launch.totalGroups with
  | .error fault => (.faulted fault, e)
  | .ok _ =>
      let e := e.note .kernelStart
      let s := LaunchState.run e.config.launch e.dispatcher runFuel
        (.initial e.config.launch e.graph e.device e.trace)
      let e := { e with graph := s.graph, device := s.device, trace := s.trace }
      match s.isOver, s.fault? with
      | false, _ => (.unfinished, e)
      | true, some fault => (.faulted fault, e)
      | true, none =>
          let (summary, e) := (e.note .kernelEnd).conclude
          (.completed summary, e)

def traceFiles (e : Engine η) : TraceFiles where
  device := if e.trace.enabled then some ⟨DeviceTrace.fileSuffix, e.trace.fileBytes⟩ else none
  host := ⟨HostTrace.fileSuffix, e.hostTrace.fileBytes⟩

instance : ToString (Engine η) :=
  ⟨fun e => RecordText.record "Engine"
    [("nodes", toString e.graph.numNodes), ("dispatcher", toString e.dispatcher),
      ("launch", toString e.config.launch), ("total_bytes", toString e.layout.totalBytes),
      ("runs", toString e.runs)]⟩

end Engine
end Lockstep
