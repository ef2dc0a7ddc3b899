import Lockstep.Identifier
import Lockstep.Json.Codec

/-!
# Trace events

What the two traces can note, with the numbers that stand for it in trace files.
-/

namespace Lockstep

inductive DeviceEvent where
  | calibration
  | nodeStart
  | nodeFinish
  | blockStart
  | blockWait
  | blockExit
deriving DecidableEq

namespace DeviceEvent

def all : List DeviceEvent :=
  [calibration, nodeStart, nodeFinish, blockStart, blockWait, blockExit]

def name : DeviceEvent → String
  | calibration => "Calibration"
  | nodeStart => "NodeStart"
  | nodeFinish => "NodeFinish"
  | blockStart => "BlockStart"
  | blockWait => "BlockWait"
  | blockExit => "BlockExit"

def raw : DeviceEvent → UInt32
  | calibration => 0
  | nodeStart => 1
  | nodeFinish => 2
  | blockStart => 3
  | blockWait => 4
  | blockExit => 5

def ofRaw? (n : UInt32) : Option DeviceEvent := all.find? (·.raw == n)

def form : Json.EnumForm DeviceEvent := ⟨name, all⟩

end DeviceEvent

inductive HostEvent where
  | runStart
  | kernelStart
  | kernelEnd
  | runEnd
deriving DecidableEq

namespace HostEvent

def all : List HostEvent := [runStart, kernelStart, kernelEnd, runEnd]

def name : HostEvent → String
  | runStart => "RunStart"
  | kernelStart => "KernelStart"
  | kernelEnd => "KernelEnd"
  | runEnd => "RunEnd"

def raw : HostEvent → Int64
  | runStart => 0
  | kernelStart => 1
  | kernelEnd => 2
  | runEnd => 3

def ofRaw? (n : Int64) : Option HostEvent := all.find? (·.raw == n)

def form : Json.EnumForm HostEvent := ⟨name, all⟩

end HostEvent

/-- Who made a device record: a block, and a group counted across all blocks. -/
structure TraceOrigin where
  block : UInt32
  group : UInt32
deriving DecidableEq

namespace TraceOrigin

def first : TraceOrigin := ⟨0, 0⟩

end TraceOrigin

structure TraceFile where
  suffix : String
  bytes : List UInt8

end Lockstep
