import Lockstep.Proofs.Entity.Queue
import Lockstep.Proofs.Storage.Simulation
import Lockstep.Storage.Room

/-!
# Room for entities

Requests for entities are answered from the room that is left, and nothing else of a storage
matters for them.  A request that is refused leaves the room as it was.
-/

namespace Lockstep

namespace Room

variable {r : Room} {a id : ArchetypeId} {error : StorageError}

theorem refusal?_of_rows {used max : Nat} (h : r.rows a = some (used, max)) :
    r.refusal? a =
      if r.slots = 0 then some (.entityCapacity r.maxEntities)
      else if max ≤ used then some (.tableFull max)
      else none := by
  rw [refusal?, h]

/-- What speaks against an entity. -/
inductive Refuses (r : Room) (a : ArchetypeId) : StorageError → Prop
  | unknown (absent : r.rows a = none) : Refuses r a (.unknownArchetype a)
  | exhausted (known : r.rows a ≠ none) (slots : r.slots = 0) :
      Refuses r a (.entityCapacity r.maxEntities)
  | full {used max : Nat} (rows : r.rows a = some (used, max)) (slots : r.slots ≠ 0)
      (le : max ≤ used) : Refuses r a (.tableFull max)

theorem refusal?_eq_some : r.refusal? a = some error ↔ r.Refuses a error := by
  cases hrows : r.rows a with
  | none =>
      have hrefusal : r.refusal? a = some (.unknownArchetype a) := by rw [refusal?, hrows]
      rw [hrefusal]
      constructor
      · intro h
        obtain rfl := Option.some.inj h
        exact .unknown hrows
      · intro h
        cases h with
        | unknown => rfl
        | exhausted known => exact absurd hrows known
        | full rows => exact absurd (hrows.symm.trans rows) nofun
  | some rows =>
      obtain ⟨used, max⟩ := rows
      have hknown : r.rows a ≠ none := hrows ▸ nofun
      rw [refusal?_of_rows hrows]
      constructor
      · intro h
        split_ifs at h with hslots hle
        · obtain rfl := Option.some.inj h
          exact .exhausted hknown hslots
        · obtain rfl := Option.some.inj h
          exact .full hrows hslots hle
      · intro h
        cases h with
        | unknown absent => exact absurd absent hknown
        | exhausted _ slots => exact if_pos slots
        | full rows slots le =>
            obtain ⟨rfl, rfl⟩ := Prod.mk.inj (Option.some.inj (hrows.symm.trans rows))
            rw [if_neg slots, if_pos le]

theorem refusal?_eq_none : r.refusal? a = none ↔ 0 < r.left a := by
  cases hrows : r.rows a with
  | none => simp [refusal?, left, hrows]
  | some rows =>
      obtain ⟨used, max⟩ := rows
      rw [refusal?_of_rows hrows, left, hrows, Option.map_some, Option.getD_some]
      dsimp only
      split_ifs with hslots hle
      · exact iff_of_false nofun (by omega)
      · exact iff_of_false nofun (by omega)
      · exact iff_of_true rfl (by omega)

theorem next_of_refused (h : r.refusal? a = some error) : r.next a = r := by
  rw [next, h]

theorem next_of_granted (h : r.refusal? a = none) : r.next a = r.occupy a := by
  rw [next, h]

theorem left_occupy (h : 0 < r.left a) : (r.occupy a).left a = r.left a - 1 := by
  unfold left at h ⊢
  cases hrows : r.rows a with
  | none => simp [hrows] at h
  | some rows =>
      simp only [occupy, Function.update_self, hrows, Option.map_some, Option.getD_some]
      omega

/-- Of the requests for entities of one archetype the first ones are granted, as many as
there is room for. -/
theorem count_refusals (r : Room) (a : ArchetypeId) (n : Nat) :
    (r.refusals (List.replicate n a)).count none = min n (r.left a) := by
  induction n generalizing r with
  | zero => exact (Nat.zero_min _).symm
  | succ n ih =>
      rw [List.replicate_succ, refusals, List.count_cons, ih]
      cases h : r.refusal? a with
      | none =>
          have hleft := refusal?_eq_none.1 h
          rw [next_of_granted h, left_occupy hleft, if_pos (beq_self_eq_true _)]
          omega
      | some error =>
          have hnone : r.left a = 0 := by
            by_contra hleft
            have hgranted := refusal?_eq_none.2 (Nat.pos_of_ne_zero hleft)
            exact Option.some_ne_none _ (h.symm.trans hgranted)
          rw [next_of_refused h, hnone]
          simp

end Room

namespace Storage

variable {s s' : Storage} {a : ArchetypeId} {world : WorldId} {archetype : Archetype}
  {e : Entity} {taken : EntityStore}

theorem rows_room (h : s.archetypes[a.index]? = some archetype) :
    s.room.rows a = some (archetype.table.numRows, archetype.table.maxRows) := by
  simp only [room, h, Option.map_some]

theorem slots_room_of_allocate (hs : s.WellFormed)
    (h : s.entities.allocate = some (e, taken)) : s.room.slots = taken.free.length + 1 := by
  simp only [room, EntityStore.free_allocate hs.entities h, List.length_cons]

/-- A slot that is given back waits for its turn again. -/
theorem room_of_returned (hs : s.WellFormed) {freed : EntityStore}
    (hallocate : s.entities.allocate = some (e, taken))
    (hrelease : taken.release? e = some freed) :
    ({ s with entities := freed } : Storage).room = s.room := by
  have hslots := slots_room_of_allocate hs hallocate
  refine Room.ext rfl ?_ rfl
  rw [hslots]
  simp only [room, EntityStore.free_release hrelease, List.length_append, List.length_singleton]

theorem room_of_made (hs : s.WellFormed) {placed : EntityStore} {table : Table}
    {location : EntityLocation} (h : s.archetypes[a.index]? = some archetype)
    (hallocate : s.entities.allocate = some (e, taken))
    (hplace : taken.setLocation? e location = some placed)
    (hnumRows : table.numRows = archetype.table.numRows + 1)
    (hmaxRows : table.maxRows = archetype.table.maxRows) :
    ({ s.setTable a table with entities := placed } : Storage).room = s.room.occupy a := by
  refine Room.ext rfl ?_ ?_
  · change placed.free.length = s.room.slots - 1
    rw [slots_room_of_allocate hs hallocate, EntityStore.free_setLocation hplace,
      Nat.add_sub_cancel]
  · funext a'
    simp only [Room.occupy, rows_room h, Option.map_some]
    by_cases ha : a' = a
    · subst ha
      rw [Function.update_self]
      simp only [room, archetypes_setTable h, if_pos, Option.map_some, hnumRows, hmaxRows]
    · have hindex : a'.index ≠ a.index := fun hindex => ha (ArchetypeId.index_inj hindex)
      rw [Function.update_of_ne ha]
      simp only [room, archetypes_setTable h, if_neg hindex]

/-- The room decides on a request, and what is left of it depends on nothing else. -/
theorem room_makeEntity (hs : s.WellFormed) (a : ArchetypeId) (world : WorldId) :
    (s.perform (.makeEntity a world)).1.error? = s.room.refusal? a ∧
      (s.perform (.makeEntity a world)).2.room = s.room.next a := by
  obtain ⟨answer, s', hmake, hmaking⟩ := making hs a world
  rw [perform_makeEntity, hmake]
  cases hmaking with
  | unknown absent eq =>
      have hrefusal : s.room.refusal? a = some (.unknownArchetype a) :=
        Room.refusal?_eq_some.2 (.unknown (by simp only [room, absent, Option.map_none]))
      rw [eq, Room.next_of_refused hrefusal, hrefusal]
      exact ⟨rfl, rfl⟩
  | exhausted found allocate eq =>
      have hslots : s.room.slots = 0 := by
        simp only [room, EntityStore.allocate_eq_none.1 allocate, List.length_nil]
      have hrefusal : s.room.refusal? a = some (.entityCapacity s.config.maxEntities) :=
        Room.refusal?_eq_some.2 (.exhausted (rows_room found ▸ nofun) hslots)
      rw [eq, Room.next_of_refused hrefusal, hrefusal]
      exact ⟨rfl, rfl⟩
  | full found allocate release returned rows eq =>
      have hslots : s.room.slots ≠ 0 := slots_room_of_allocate hs allocate ▸ Nat.succ_ne_zero _
      have hrefusal := Room.refusal?_eq_some.2 (.full (rows_room found) hslots rows.ge)
      rw [Room.next_of_refused hrefusal, hrefusal]
      exact ⟨rfl, eq ▸ room_of_returned hs allocate release⟩
  | made found allocate place free lt numRows maxRows eq view wellFormed =>
      have hrefusal : s.room.refusal? a = none := by
        rw [Room.refusal?_of_rows (rows_room found), slots_room_of_allocate hs allocate,
          if_neg (Nat.succ_ne_zero _), if_neg lt.not_ge]
      rw [Room.next_of_granted hrefusal, hrefusal]
      exact ⟨rfl, eq ▸ room_of_made hs found allocate place numRows maxRows⟩

theorem makeEntity_error_iff (hs : s.WellFormed) {error : StorageError} :
    (s.makeEntity a world).1 = .error error ↔ s.room.Refuses a error := by
  obtain ⟨hanswer, -⟩ := room_makeEntity hs a world
  rw [← Room.refusal?_eq_some, ← hanswer, perform_makeEntity]
  obtain ⟨answer, s'⟩ := s.makeEntity a world
  cases answer with
  | ok e => exact iff_of_false nofun nofun
  | error found =>
      constructor
      · exact fun h => congrArg some (Except.error.inj h)
      · exact fun h => congrArg Except.error (Option.some.inj h)

/-- Requests are answered from the room alone. -/
theorem refusals_eq (hs : s.WellFormed) (wanted : List (ArchetypeId × WorldId)) :
    s.refusals wanted = s.room.refusals (wanted.map (·.1)) := by
  induction wanted generalizing s with
  | nil => rfl
  | cons request wanted ih =>
      obtain ⟨a, world⟩ := request
      obtain ⟨hanswer, hroom⟩ := room_makeEntity hs a world
      rw [List.map_cons, Room.refusals, ← hanswer, ← hroom,
        ← ih (simulates hs (.makeEntity a world)).wellFormed]
      rfl

end Storage
end Lockstep
