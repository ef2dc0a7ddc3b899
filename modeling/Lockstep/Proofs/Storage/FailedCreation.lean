import Lockstep.Proofs.Entity.Reuse
import Lockstep.Proofs.Storage.Effect
import Lockstep.Proofs.Storage.Room
import Lockstep.Proofs.Storage.SingleCell

/-!
# A failed creation is not seen

A request for an entity that is refused leaves all tables as they are, and every handle keeps
its meaning.  When the table is full a slot has been taken and given back: it moved on to its
next generation and to the end of the queue, and yet nobody who has a handle can tell, and as
many entities can be made as before.
-/

namespace Lockstep

namespace EntityStore

variable {s s' : EntityStore} {e : Entity}

/-- The free slots are queued without repetition, and they are all those that nobody holds. -/
structure FreeList (capacity : UInt32) (s : EntityStore) : Prop where
  nodup : s.free.Nodup
  mem_iff : ∀ n, n ∈ s.free ↔
    n < capacity.toNat ∧ (s.slotAt (UInt32.ofNat n)).occupancy.isLive = false
  liveCount : s.liveCount + s.free.length = capacity.toNat

theorem Account.freeList {capacity : UInt32} {history : List EntityExchange}
    (h : Account capacity history s) : s.FreeList capacity where
  nodup := h.nodup
  mem_iff := h.mem_free
  liveCount := (liveCount_add_length_free h.sound).trans h.size

/-- Every slot is in use. -/
def Exhausted (capacity : UInt32) (s : EntityStore) : Prop :=
  ∀ n < capacity.toNat, (s.slotAt (UInt32.ofNat n)).occupancy.isLive = true

theorem Account.exhausted_iff {capacity : UInt32} {history : List EntityExchange}
    (h : Account capacity history s) : s.free.length = 0 ↔ s.Exhausted capacity := by
  rw [List.length_eq_zero_iff, ← allocate_eq_none]
  exact h.allocate_eq_none_iff

/-- Handles mean the same in both stores. -/
structure Alike (s s' : EntityStore) : Prop where
  liveCount : s'.liveCount = s.liveCount
  isLive : ∀ e, s'.isLive e = s.isLive e
  location? : ∀ e, s'.location? e = s.location? e

theorem Alike.refl (s : EntityStore) : s.Alike s := ⟨rfl, fun _ => rfl, fun _ => rfl⟩

theorem Returned.alike (h : s.Returned e s') : s.Alike s' :=
  ⟨h.liveCount, h.isLive_eq, h.location?_eq⟩

end EntityStore

namespace Storage

variable {s s' : Storage} {a : ArchetypeId} {world : WorldId} {error : StorageError}

section reachable

variable {config : StateConfig}

/-- The entity store of a storage that can be reached is as its history tells. -/
theorem Reachable.account (h : s.Reachable config) :
    s.config = config ∧ ∃ history, EntityStore.Account config.maxEntities history s.entities := by
  induction h with
  | new h =>
      obtain ⟨-, rfl⟩ := new_eq_ok h
      exact ⟨rfl, [], .empty config.maxEntities⟩
  | @call s _ call ih =>
      obtain ⟨hconfig, history, haccount⟩ := ih
      obtain ⟨calls, hcalls⟩ := (s.effect call).entities
      exact ⟨(s.effect call).config.trans hconfig, _, hcalls ▸ haccount.after calls⟩
  | write _ _ _ ih => exact ih
  | commit _ _ _ ih => exact ih

theorem Reachable.makeEntity (hs : s.Reachable config) (a : ArchetypeId) (world : WorldId) :
    (s.makeEntity a world).2.Reachable config := by
  have h := hs.call (.makeEntity a world)
  rw [perform_makeEntity] at h
  generalize s.makeEntity a world = result at h ⊢
  obtain ⟨answer, s'⟩ := result
  cases answer with
  | ok e => exact h
  | error error => exact h

/-- What a request for an entity leaves when it is refused. -/
structure Unnoticed (config : StateConfig) (s s' : Storage) : Prop where
  /-- Every table has the rows, the committed rows and the cells that it had. -/
  others : s' = { s with entities := s'.entities }
  numEntities : s'.numEntities = s.numEntities
  isLive : ∀ e, s'.entities.isLive e = s.entities.isLive e
  isValid : ∀ e, s'.isValid e = s.isValid e
  entityLocation : ∀ e, s'.entityLocation e = s.entityLocation e
  getComponent : ∀ e c info, s'.getComponent e c info = s.getComponent e c info
  freeList : s'.entities.FreeList config.maxEntities
  refusals : ∀ wanted, s'.refusals wanted = s.refusals wanted
  /-- Requests for one archetype are granted until what was left of the room is used up. -/
  granted : ∀ b world n, (s'.refusals (List.replicate n (b, world))).count none =
    min n (s.room.left b)

section setEntities

variable {entities : EntityStore} (h : s.entities.Alike entities)
include h

theorem entityLocation_setEntities (e : Entity) :
    ({ s with entities } : Storage).entityLocation e = s.entityLocation e := by
  unfold entityLocation
  rw [h.location?]

theorem getComponent_setEntities (e : Entity) (c : ComponentId) (info : TypeInfo) :
    ({ s with entities } : Storage).getComponent e c info = s.getComponent e c info := by
  unfold getComponent locateComponent
  rw [entityLocation_setEntities h]
  rfl

end setEntities

theorem refusals_congr (hs : s.WellFormed) (hs' : s'.WellFormed) (hroom : s'.room = s.room)
    (wanted : List (ArchetypeId × WorldId)) : s'.refusals wanted = s.refusals wanted := by
  rw [refusals_eq hs', refusals_eq hs, hroom]

/-- Handles and the room are all that is seen of the entity store. -/
theorem Reachable.unnoticed {entities : EntityStore} (hs : s.Reachable config)
    (hs' : ({ s with entities } : Storage).Reachable config)
    (hroom : ({ s with entities } : Storage).room = s.room) (halike : s.entities.Alike entities) :
    s.Unnoticed config { s with entities } := by
  obtain ⟨-, history, haccount⟩ := hs'.account
  refine ⟨rfl, halike.liveCount, halike.isLive, fun e => ?_, entityLocation_setEntities halike,
    getComponent_setEntities halike, haccount.freeList,
    refusals_congr hs.wellFormed hs'.wellFormed hroom, fun b world n => ?_⟩
  · rw [isValid, isValid, entityLocation_setEntities halike]
  · rw [refusals_eq hs'.wellFormed, hroom, List.map_replicate, Room.count_refusals]

theorem Making.unnoticed (hs : s.Reachable config) (hs' : s'.Reachable config)
    (h : s.Making a world s' (.error error)) : s.Unnoticed config s' := by
  cases h with
  | unknown _ eq | exhausted _ _ eq =>
      rw [eq]
      exact hs.unnoticed hs rfl (.refl _)
  | full found allocate release returned rows eq =>
      rw [eq] at hs' ⊢
      exact hs.unnoticed hs' (room_of_returned hs.wellFormed allocate release) returned.alike

/-! ## Which requests are refused -/

theorem refuses_unknown_iff {id : ArchetypeId} :
    s.room.Refuses a (.unknownArchetype id) ↔ id = a ∧ s.archetypes.size ≤ a.index := by
  constructor
  · intro h
    cases h with
    | unknown absent => exact ⟨rfl, by simpa [room] using absent⟩
  · rintro ⟨rfl, hsize⟩
    exact .unknown (by simpa [room] using hsize)

theorem Reachable.refuses_capacity_iff (hs : s.Reachable config) {max : UInt32} :
    s.room.Refuses a (.entityCapacity max) ↔ max = config.maxEntities ∧
      a.index < s.archetypes.size ∧ s.entities.Exhausted config.maxEntities := by
  obtain ⟨hconfig, history, haccount⟩ := hs.account
  rw [← haccount.exhausted_iff]
  constructor
  · intro h
    cases h with
    | exhausted known slots =>
        exact ⟨congrArg StateConfig.maxEntities hconfig, by simpa [room] using known, slots⟩
  · rintro ⟨rfl, hindex, hslots⟩
    rw [← hconfig]
    exact .exhausted (by simpa [room] using hindex) hslots

theorem Reachable.refuses_full_iff (hs : s.Reachable config) {max : Nat} :
    s.room.Refuses a (.tableFull max) ↔ ¬ s.entities.Exhausted config.maxEntities ∧
      ∃ archetype, s.archetype a = .ok archetype ∧ archetype.table.maxRows = max ∧
        archetype.numRows = max := by
  obtain ⟨-, history, haccount⟩ := hs.account
  rw [← haccount.exhausted_iff]
  constructor
  · intro h
    cases h with
    | full rows slots le =>
        obtain ⟨archetype, harchetype, heq⟩ := Option.map_eq_some_iff.1 rows
        obtain ⟨rfl, rfl⟩ := Prod.mk.inj heq
        have hle := (hs.wellFormed.archetypes _ _ harchetype).numRows_le
        exact ⟨slots, archetype, archetype_eq_ok.2 harchetype, rfl, Nat.le_antisymm hle le⟩
  · rintro ⟨hslots, archetype, harchetype, rfl, hrows⟩
    exact .full (rows_room (archetype_eq_ok.1 harchetype)) hslots hrows.ge

/-- In every storage that can be reached, a request for an entity is refused when there is no
such archetype, else when all slots are in use, and else when the table is full, and for no
other reason.  Whichever it is, tables and handles stay what they are, the free slots are in
order, and later requests are answered as if there had been none. -/
theorem failed_creation_unnoticed (hs : s.Reachable config) (a : ArchetypeId) (world : WorldId) :
    let answer := (s.makeEntity a world).1
    let s' := (s.makeEntity a world).2
    (∀ id, answer = .error (.unknownArchetype id) ↔ id = a ∧ s.archetypes.size ≤ a.index) ∧
    (∀ max, answer = .error (.entityCapacity max) ↔ max = config.maxEntities ∧
      a.index < s.archetypes.size ∧ s.entities.Exhausted config.maxEntities) ∧
    (∀ max, answer = .error (.tableFull max) ↔ ¬ s.entities.Exhausted config.maxEntities ∧
      ∃ archetype, s.archetype a = .ok archetype ∧ archetype.table.maxRows = max ∧
        archetype.numRows = max) ∧
    ∀ error, answer = .error error →
      ((∃ id, error = .unknownArchetype id) ∨ (∃ max, error = .entityCapacity max) ∨
        ∃ max, error = .tableFull max) ∧
      s.Unnoticed config s' := by
  intro answer s'
  have hiff : ∀ error, answer = .error error ↔ s.room.Refuses a error := fun error =>
    makeEntity_error_iff hs.wellFormed
  refine ⟨fun id => (hiff _).trans refuses_unknown_iff,
    fun max => (hiff _).trans hs.refuses_capacity_iff,
    fun max => (hiff _).trans hs.refuses_full_iff, fun error herror => ⟨?_, ?_⟩⟩
  · cases (hiff error).1 herror with
    | unknown => exact .inl ⟨_, rfl⟩
    | exhausted => exact .inr (.inl ⟨_, rfl⟩)
    | full => exact .inr (.inr ⟨_, rfl⟩)
  · obtain ⟨found, left, hmake, hmaking⟩ := making hs.wellFormed a world
    have hreached := hs.makeEntity a world
    have hleft : s' = left := congrArg Prod.snd hmake
    obtain rfl : found = .error error := (congrArg Prod.fst hmake).symm.trans herror
    rw [hmake] at hreached
    rw [hleft]
    exact hmaking.unnoticed hs hreached

end reachable

namespace Crowded

def config : StateConfig where
  numWorlds := 1
  maxRowsPerTable := 1
  maxComponents := 2
  maxArchetypes := 2
  maxArchetypeComponents := 1
  maxQueryData := 1
  maxEntities := 2

def start : Storage := ⟨config, .builtins 2, #[], #[], .empty 1, .empty 2⟩

theorem start_eq : Storage.new config = .ok start := rfl

/-- Of two archetypes the first has no row left. -/
def storage : Storage :=
  start.after [.registerArchetype [], .registerArchetype [], .makeEntity ⟨0⟩ ⟨0⟩]

theorem reachable : storage.Reachable config := (((Reachable.new start_eq).call _).call _).call _

end Crowded

/-- The slot that is given back goes to an entity of the other archetype. -/
theorem failed_creation_unnoticed_sample :
    let s := (Crowded.storage.makeEntity ⟨0⟩ ⟨0⟩).2
    (Crowded.storage.makeEntity ⟨0⟩ ⟨0⟩).1 = .error (.tableFull 1) ∧
      Crowded.storage.Unnoticed Crowded.config s ∧ s.refusals [(⟨1⟩, ⟨0⟩)] = [none] := by
  intro s
  obtain ⟨-, -, -, hunnoticed⟩ := failed_creation_unnoticed Crowded.reachable ⟨0⟩ ⟨0⟩
  have hanswer : (Crowded.storage.makeEntity ⟨0⟩ ⟨0⟩).1 = .error (.tableFull 1) := by
    decide +kernel
  have hsame := (hunnoticed _ hanswer).2
  refine ⟨hanswer, hsame, ?_⟩
  rw [hsame.refusals]
  decide +kernel

end Storage
end Lockstep
