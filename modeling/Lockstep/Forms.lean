import Lockstep.Component
import Lockstep.Config.Engine
import Lockstep.Trace.Event

/-!
# JSON forms of identifiers, handles and layouts

Identifiers are written as bare numbers.  Handles and layouts are objects all of
whose fields have to be given.  Every type with a JSON form can be looked up by
its name.
-/

namespace Lockstep

open Json

namespace ComponentId

def codec : Codec ComponentId := Codec.uint32.map mk raw

end ComponentId

namespace ArchetypeId

def codec : Codec ArchetypeId := Codec.uint32.map mk raw

end ArchetypeId

namespace WorldId

def codec : Codec WorldId := Codec.uint32.map mk raw

end WorldId

namespace FuncId

def codec : Codec FuncId := Codec.uint32.map mk raw

end FuncId

namespace NodeId

def codec : Codec NodeId := Codec.uint32.map mk raw

end NodeId

namespace Entity

def form : RecordForm Entity where
  fields := [
    .of "index" .uint32 index fun e n => { e with index := n },
    .of "generation" .uint32 generation fun e n => { e with generation := n }]
  initial := ⟨0, 0⟩
  complete := true

end Entity

namespace TypeInfo

def form : RecordForm TypeInfo where
  fields := [
    .of "alignment" .uint32 alignment fun t n => { t with alignment := n },
    .of "num_bytes" .uint32 numBytes fun t n => { t with numBytes := n }]
  initial := ⟨0, 0⟩
  complete := true

end TypeInfo

/-- What a text says when it is read as a value of some type. -/
structure ReadText where
  json : String
  display : String

structure TextForm where
  name : String
  read : String → Except JsonError ReadText

namespace TextForm

def of {α : Type} (name : String) (codec : Codec α) (display : α → String) : TextForm where
  name
  read text := (codec.parse text).map fun a => ⟨codec.text a, display a⟩

def all : List TextForm := [
  .of "Entity" Entity.form.codec toString,
  .of "WorldId" WorldId.codec toString,
  .of "ComponentId" ComponentId.codec toString,
  .of "ArchetypeId" ArchetypeId.codec toString,
  .of "TypeInfo" TypeInfo.form.codec toString,
  .of "FuncId" FuncId.codec toString,
  .of "NodeId" NodeId.codec toString,
  .of "DeviceEvent" DeviceEvent.form.codec DeviceEvent.name,
  .of "HostEvent" HostEvent.form.codec HostEvent.name,
  .of "StateConfig" StateConfig.form.codec toString,
  .of "LaunchConfig" LaunchConfig.form.codec toString,
  .of "TraceConfig" TraceConfig.form.codec toString,
  .of "EngineConfig" EngineConfig.form.codec toString]

def find? (name : String) : Option TextForm := all.find? (·.name == name)

end TextForm
end Lockstep
