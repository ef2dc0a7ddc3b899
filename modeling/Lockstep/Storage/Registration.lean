import Lockstep.Storage.History

/-!
# Registering archetypes

What a history of calls has registered, and the registration of an archetype in single
steps.  The steps work on the storage itself, so a fault leaves it as far as they have come.
-/

namespace Lockstep

/-- Whether the call registers a component or an archetype. -/
def StorageCall.isRegistration : StorageCall → Bool
  | registerComponent _ => true
  | registerComponentWithId .. => true
  | registerComponentType _ => true
  | registerArchetype _ => true
  | _ => false

/-- Whether the call came to nothing. -/
def StorageAnswer.isFailure : StorageAnswer → Bool
  | refused _ => true
  | query (.error _) _ => true
  | faulted _ => true
  | _ => false

/-- The archetype that the exchange registers, with its components. -/
def StorageExchange.registers? : StorageExchange → Option (ArchetypeId × List ComponentId)
  | ⟨.registerArchetype components, .archetype id⟩ => some (id, components)
  | _ => none

namespace Storage

/-- The archetypes that a history registers, the oldest first. -/
def registrations (history : List StorageExchange) : List (ArchetypeId × List ComponentId) :=
  history.filterMap StorageExchange.registers?

/-- A reason why a list of components cannot make an archetype. -/
inductive Inadmissible (s : Storage) (components : List ComponentId) : Prop
  | archetypes (h : s.config.maxArchetypes.toNat ≤ s.archetypes.size)
  | room (h : s.config.maxArchetypeComponents.toNat
      < s.archetypeComponents.size + components.length)
  | builtin {c : ComponentId} (hc : c ∈ components) (h : c.isBuiltin = true)
  | repeated (h : ¬ components.Nodup)
  | unregistered {c : ComponentId} (hc : c ∈ components) (h : s.registry.isRegistered c = false)

/-- Takes over a result that was worked out without the storage. -/
def lift {α : Type} : Except Fault α → EStateM Fault Storage α
  | .ok a => pure a
  | .error fault => throw fault

/-- The registration of an archetype, step by step. -/
def registerArchetypeSteps (components : List ComponentId) :
    EStateM Fault Storage (Except StorageError ArchetypeId) := do
  let s ← get
  match s.checkArchetype components with
  | .error e => return .error e
  | .ok infos =>
      let table ← lift (Table.new (Archetype.columnInfos infos) s.config.maxRowsPerTable
        s.config.numWorlds)
      let archetype : Archetype := ⟨s.archetypeComponents.size, components, table⟩
      modify fun s => { s with
        archetypeComponents := s.archetypeComponents ++ components.toArray }
      modify fun s => { s with archetypes := s.archetypes.push archetype }
      return .ok ⟨UInt32.ofNat s.archetypes.size⟩

end Storage
end Lockstep
