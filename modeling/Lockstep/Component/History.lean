import Lockstep.Component.Registry

/-!
# Histories of a component registry

Registrations of layouts and of value types in any order, each with the answer of the
registry.  Each registration is also given in single steps.  The steps work on the registry
itself, so an error leaves it as far as they have come.
-/

namespace Lockstep

inductive RegistryCall where
  | register (info : TypeInfo)
  | registerWithId (id : ComponentId) (info : TypeInfo)
  | registerType (type : ValueType)
deriving DecidableEq

inductive RegistryAnswer where
  | component (id : ComponentId)
  | done
  | refused (error : StorageError)
deriving DecidableEq

structure RegistryExchange where
  call : RegistryCall
  answer : RegistryAnswer
deriving DecidableEq

namespace RegistryExchange

/-- The slot that the exchange fills, with the layout that it puts there. -/
def fills? : RegistryExchange → Option (ComponentId × TypeInfo)
  | ⟨.register info, .component id⟩ => some (id, info)
  | ⟨.registerWithId id info, .done⟩ => some (id, info)
  | ⟨.registerType type, .component id⟩ => some (id, type.info)
  | _ => none

/-- The type that the exchange registers, with the identifier that it gets. -/
def names? : RegistryExchange → Option (ValueType × ComponentId)
  | ⟨.registerType type, .component id⟩ => some (type, id)
  | _ => none

end RegistryExchange

namespace ComponentRegistry

def IsFilled (r : ComponentRegistry) (i : Nat) : Prop := ∃ info, r.slots[i]? = some (some info)

def IsFree (r : ComponentRegistry) (i : Nat) : Prop := r.slots[i]? = some none

structure IsLowestFree (r : ComponentRegistry) (i : Nat) : Prop where
  free : r.IsFree i
  below : ∀ j < i, r.IsFilled j

/-- The answer is the lowest free slot, or that all slots are taken. -/
structure TakesLowestFree (r : ComponentRegistry) (answer : RegistryAnswer) : Prop where
  component_iff : ∀ id, answer = .component id ↔ r.IsLowestFree id.index
  refused_iff : answer = .refused (.componentCapacity r.capacity) ↔ ∀ i, ¬ r.IsFree i

def registerSteps (info : TypeInfo) : EStateM StorageError ComponentRegistry ComponentId := do
  if !info.isValid then throw (.invalidLayout info.alignment info.numBytes)
  let r ← get
  match r.freeSlot? with
  | none => throw (.componentCapacity r.capacity)
  | some slot =>
      modify fun r => { r with slots := r.slots.setIfInBounds slot (some info) }
      modify fun r => { r with nextFree := slot + 1 }
      return ⟨UInt32.ofNat slot⟩

def registerWithIdSteps (id : ComponentId) (info : TypeInfo) :
    EStateM StorageError ComponentRegistry Unit := do
  if !info.isValid then throw (.invalidLayout info.alignment info.numBytes)
  let r ← get
  match r.slots[id.index]? with
  | none => throw (.componentCapacity r.capacity)
  | some (some _) => throw (.duplicateComponent id)
  | some none => modify fun r => { r with slots := r.slots.setIfInBounds id.index (some info) }

/-- A type is noted only after its layout has found a slot. -/
def registerTypeSteps (type : ValueType) :
    EStateM StorageError ComponentRegistry ComponentId := do
  match (← get).lookup type with
  | some existing => throw (.duplicateComponent existing)
  | none =>
      let id ← registerSteps type.info
      modify fun r => { r with byType := (type.name, id) :: r.byType }
      return id

/-- What a call that asks for a slot leaves. -/
def handed (r : ComponentRegistry) :
    Except StorageError (ComponentId × ComponentRegistry) → RegistryAnswer × ComponentRegistry
  | .ok (id, r') => (.component id, r')
  | .error e => (.refused e, r)

/-- What a call that names its slot leaves. -/
def stored (r : ComponentRegistry) :
    Except StorageError ComponentRegistry → RegistryAnswer × ComponentRegistry
  | .ok r' => (.done, r')
  | .error e => (.refused e, r)

def perform (r : ComponentRegistry) : RegistryCall → RegistryAnswer × ComponentRegistry
  | .register info => r.handed (r.register info)
  | .registerWithId id info => r.stored (r.registerWithId id info)
  | .registerType type => r.handed (r.registerType type)

def after (r : ComponentRegistry) (calls : List RegistryCall) : ComponentRegistry :=
  calls.foldl (fun r call => (r.perform call).2) r

def exchanges : ComponentRegistry → (calls : List RegistryCall) → List RegistryExchange
  | _, [] => []
  | r, call :: calls => ⟨call, (r.perform call).1⟩ :: exchanges (r.perform call).2 calls

/-- The layouts that a history has put into slots, after the built-in ones. -/
def filledIn (history : List RegistryExchange) : List (ComponentId × TypeInfo) :=
  [(.entity, .entity), (.worldId, .worldId)] ++ history.filterMap RegistryExchange.fills?

/-- The types that a history has registered, after the built-in ones. -/
def namedIn (history : List RegistryExchange) : List (ValueType × ComponentId) :=
  [(.entity, .entity), (.worldId, .worldId)] ++ history.filterMap RegistryExchange.names?

end ComponentRegistry

/-- A registration in single steps. -/
def RegistryCall.steps : RegistryCall → EStateM StorageError ComponentRegistry RegistryAnswer
  | register info => return .component (← ComponentRegistry.registerSteps info)
  | registerWithId id info => do
      ComponentRegistry.registerWithIdSteps id info
      return .done
  | registerType type => return .component (← ComponentRegistry.registerTypeSteps type)

end Lockstep
