import Lockstep.Proofs.Entity.Queue
import Lockstep.Proofs.Storage.Simulation
import Lockstep.Proofs.Table.Steps

/-!
# What a call may touch

A call changes the registry, the archetypes, the queries, one table or the entity store, and
leaves the other parts of a storage as they are.
-/

namespace Lockstep

namespace Table

variable {t t' : Table}

theorem staysWithin_of_allocRows {count first : Nat} (h : t.allocRows count = .ok (first, t')) :
    t.StaysWithin t' := by
  have hstays := t.staysWithin_perform (.allocRows count)
  rwa [perform, h] at hstays

theorem staysWithin_of_write {col row : Nat} {value : Value} (h : t.write col row value = .ok t') :
    t.StaysWithin t' := by
  have hstays := t.staysWithin_perform (.write col row value)
  rwa [perform, h] at hstays

theorem staysWithin_of_set {col row : Nat} {value : Value}
    (h : t.set col row value = .ok (some t')) : t.StaysWithin t' := by
  have hstays := t.staysWithin_perform (.set col row value)
  rwa [perform, h] at hstays

theorem staysWithin_claimRow (t : Table) (row : Nat) (e : Entity) (world : WorldId) :
    t.StaysWithin ((Storage.claimRow t row e world).toOption.getD t) := by
  unfold Storage.claimRow
  cases hfirst : t.write Archetype.entityColumn row (.ofEntity e) with
  | error fault => exact .refl t
  | ok t₁ =>
      dsimp only [bind, Except.bind]
      cases hsecond : t₁.write Archetype.worldIdColumn row (.ofWorldId world) with
      | error fault => exact .refl t
      | ok t₂ => exact (staysWithin_of_write hfirst).trans (staysWithin_of_write hsecond)

end Table

namespace Storage

/-- What a call leaves of a storage. -/
inductive Effect (s : Storage) : StorageCall → Storage → Prop
  | nothing {call : StorageCall} : Effect s call s
  | registry {call : StorageCall} (registry : ComponentRegistry) : Effect s call { s with registry }
  | archetype {components : List ComponentId} (archetype : Archetype)
      (pool : Array ComponentId) : Effect s (.registerArchetype components) { s with
        archetypes := s.archetypes.push archetype
        archetypeComponents := pool }
  | queries {components : List ComponentId} {ref : QueryRef} (queries : QueryCache) :
      Effect s (.makeQuery components ref) { s with queries }
  | slots {call : StorageCall} {entities : EntityStore} (calls : List EntityCall)
      (eq : entities = s.entities.after calls) : Effect s call { s with entities }
  | table {call : StorageCall} {a : ArchetypeId} {archetype : Archetype} {table : Table}
      {entities : EntityStore} (found : s.archetype a = .ok archetype)
      (stays : archetype.table.StaysWithin table) (calls : List EntityCall)
      (eq : entities = s.entities.after calls) :
      Effect s call { s.setTable a table with entities }

namespace Effect

variable {s s' : Storage} {call : StorageCall}

theorem config (h : s.Effect call s') : s'.config = s.config := by
  cases h <;> rfl

/-- The entity store has answered some calls. -/
theorem entities (h : s.Effect call s') : ∃ calls, s'.entities = s.entities.after calls := by
  cases h with
  | nothing | registry | archetype | queries => exact ⟨[], rfl⟩
  | slots calls eq => exact ⟨calls, eq⟩
  | table _ _ calls eq => exact ⟨calls, eq⟩

end Effect

theorem effect_registerArchetype (s : Storage) (components : List ComponentId) :
    s.Effect (.registerArchetype components) (s.perform (.registerArchetype components)).2 := by
  rw [perform_registerArchetype, registerArchetype]
  cases s.checkArchetype components with
  | error e => exact .nothing
  | ok infos =>
      dsimp only
      cases Table.new (Archetype.columnInfos infos) s.config.maxRowsPerTable
          s.config.numWorlds with
      | error fault => exact .nothing
      | ok table => exact .archetype _ _

/-- The slot that is taken is given a location or given back. -/
theorem effect_makeEntity (s : Storage) (a : ArchetypeId) (world : WorldId) :
    s.Effect (.makeEntity a world) (s.perform (.makeEntity a world)).2 := by
  rw [perform_makeEntity, makeEntity]
  cases h : s.archetype a with
  | error e => exact .nothing
  | ok archetype =>
      dsimp only
      cases hallocate : s.entities.allocate with
      | none => exact .nothing
      | some result =>
          obtain ⟨e, taken⟩ := result
          dsimp only
          cases hrow : archetype.table.allocRow with
          | error error =>
              refine .slots [.allocate, .release e] ?_
              rw [EntityStore.after_allocate hallocate]
              exact (taken.perform_release e).symm
          | ok result =>
              obtain ⟨row, table⟩ := result
              have hstays := (Table.staysWithin_of_allocRows hrow).trans
                (table.staysWithin_claimRow row e world)
              refine .table h hstays [.allocate, .setLocation e ⟨a, row⟩] ?_
              rw [EntityStore.after_allocate hallocate]
              exact (taken.perform_setLocation e _).symm

theorem effect_setComponent (s : Storage) (e : Entity) (c : ComponentId) (value : Value) :
    s.Effect (.setComponent e c value) (s.perform (.setComponent e c value)).2 := by
  rw [perform_setComponent, setComponent]
  cases hlocate : s.locateComponent e c value.info with
  | error error => exact .nothing
  | ok result =>
      obtain ⟨location, archetype, col⟩ := result
      obtain ⟨-, harchetype, -⟩ := locateComponent_ok hlocate
      dsimp only [bind, Except.bind]
      cases hset : archetype.table.set col location.row value with
      | error fault => exact .nothing
      | ok found =>
          cases found with
          | none => exact .nothing
          | some table =>
              exact .table (archetype_eq_ok.2 harchetype) (Table.staysWithin_of_set hset) [] rfl

theorem effect (s : Storage) (call : StorageCall) : s.Effect call (s.perform call).2 := by
  cases call with
  | registerComponent info =>
      rw [perform_registerComponent, registerComponent]
      cases s.registry.register info with
      | error e => exact .nothing
      | ok result => exact .registry _
  | registerComponentWithId id info =>
      rw [perform_registerComponentWithId, registerComponentWithId]
      cases s.registry.registerWithId id info with
      | error e => exact .nothing
      | ok registry => exact .registry _
  | registerComponentType type =>
      rw [perform_registerComponentType, registerComponentType]
      cases s.registry.registerType type with
      | error e => exact .nothing
      | ok result => exact .registry _
  | registerArchetype components => exact s.effect_registerArchetype components
  | makeEntity a world => exact s.effect_makeEntity a world
  | destroyEntity e =>
      have hrelease := s.entities.perform_release e
      rw [perform_destroyEntity, destroyEntity?]
      cases h : s.entities.release? e with
      | none => exact .nothing
      | some freed =>
          rw [h, Option.getD_some] at hrelease
          exact .slots [.release e] hrelease.symm
  | clearTemporaries a =>
      rw [perform_clearTemporaries, clearTemporaries]
      cases h : s.archetype a with
      | error e => exact .nothing
      | ok archetype => exact .table h (archetype.table.staysWithin_perform .clear) [] rfl
  | makeQuery components ref =>
      obtain ⟨result, ref', queries, hquery⟩ := s.makeQuery_eq components ref
      rw [perform_makeQuery, hquery]
      exact .queries queries
  | setComponent e c value => exact s.effect_setComponent e c value
  | allocRows a count =>
      rw [perform_allocRows, allocRows]
      cases h : s.archetype a with
      | error e => exact .nothing
      | ok archetype =>
          dsimp only [bind, Except.bind]
          cases hrows : archetype.table.allocRows count with
          | error e => exact .nothing
          | ok result => exact .table h (Table.staysWithin_of_allocRows hrows) [] rfl

end Storage
end Lockstep
