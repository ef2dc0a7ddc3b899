import Lockstep.Proofs.Storage.WellFormed

/-!
# Making an entity

A request for an entity takes a slot and then a row of the archetype's table, and it is refused
when there is no such archetype, no free slot or no free row.  In the last case the slot that
was taken is given back.
-/

namespace Lockstep
namespace Storage

variable {s : Storage} {a : ArchetypeId} {archetype : Archetype} {e : Entity}
  {taken : EntityStore}

/-- A row that was just taken is claimed by an entity. -/
theorem claimRow_ok (hs : s.WellFormed) {row : Nat}
    (h : s.archetypes[a.index]? = some archetype) (hrow : row < archetype.table.maxRows)
    (e : Entity) (world : WorldId) :
    ∃ table, claimRow archetype.table row e world = .ok table ∧
      archetype.table.SameShape table ∧ table.numRows = archetype.table.numRows ∧
      (s.setTable a table).WellFormed ∧
      (s.setTable a table).view = (s.view.write ⟨a, row⟩ .entity e.bytes).write ⟨a, row⟩ .worldId
        (Bytes.ofUInt32 world.raw) := by
  obtain ⟨table, hwrite, hwrote, hs', hview⟩ := hs.write (.ofEntity e) h
    Archetype.columnIndex_entity hs.entityInfo (TypeInfo.fits_self _) hrow
  have h' : (s.setTable a table).archetypes[a.index]? = some { archetype with table } := by
    rw [archetypes_setTable h, if_pos rfl]
  obtain ⟨table', hwrite', hwrote', hs'', hview'⟩ := hs'.write (.ofWorldId world) h'
    Archetype.columnIndex_worldId hs.worldIdInfo (TypeInfo.fits_self _)
    (hwrote.shape.maxRows.symm ▸ hrow)
  rw [setTable_setTable] at hs'' hview'
  refine ⟨table', ?_, hwrote.shape.trans hwrote'.shape, hwrote'.numRows.trans hwrote.numRows,
    hs'', ?_⟩
  · simp [claimRow, hwrite, hwrite', bind, Except.bind]
  · rw [hview', hview]
    rfl

/-- What a request for an entity comes to: its answer, and the storage that it leaves. -/
inductive Making (s : Storage) (a : ArchetypeId) (world : WorldId) (s' : Storage) :
    Except StorageError Entity → Prop
  | unknown (absent : s.archetypes[a.index]? = none) (eq : s' = s) :
      Making s a world s' (.error (.unknownArchetype a))
  | exhausted {archetype : Archetype} (found : s.archetypes[a.index]? = some archetype)
      (allocate : s.entities.allocate = none) (eq : s' = s) :
      Making s a world s' (.error (.entityCapacity s.config.maxEntities))
  | full {archetype : Archetype} {e : Entity} {taken freed : EntityStore}
      (found : s.archetypes[a.index]? = some archetype)
      (allocate : s.entities.allocate = some (e, taken)) (release : taken.release? e = some freed)
      (returned : s.entities.Returned e freed)
      (rows : archetype.table.numRows = archetype.table.maxRows)
      (eq : s' = { s with entities := freed }) :
      Making s a world s' (.error (.tableFull archetype.table.maxRows))
  | made {archetype : Archetype} {e : Entity} {taken placed : EntityStore} {table : Table}
      (found : s.archetypes[a.index]? = some archetype)
      (allocate : s.entities.allocate = some (e, taken))
      (place : taken.setLocation? e ⟨a, archetype.table.numRows⟩ = some placed)
      (free : s.entities.slotAt e.index = ⟨e.generation, .free⟩)
      (lt : archetype.table.numRows < archetype.table.maxRows)
      (numRows : table.numRows = archetype.table.numRows + 1)
      (maxRows : table.maxRows = archetype.table.maxRows)
      (eq : s' = { s.setTable a table with entities := placed })
      (view : s'.view = s.view.settle e a world) (wellFormed : s'.WellFormed) :
      Making s a world s' (.ok e)

/-- There is no row for the slot that was taken. -/
theorem making_of_full (hs : s.WellFormed) (h : s.archetypes[a.index]? = some archetype)
    (hallocate : s.entities.allocate = some (e, taken)) {error : StorageError}
    (hrow : archetype.table.allocRow = .error error) (world : WorldId) :
    ∃ answer s', s.makeEntity a world = (answer, s') ∧ s.Making a world s' answer := by
  obtain ⟨rfl, hlt⟩ := Table.full_of_allocRows hrow
  have hrows : archetype.table.numRows = archetype.table.maxRows :=
    Nat.le_antisymm (hs.archetypes _ _ h).numRows_le (Nat.le_of_lt_succ hlt)
  obtain ⟨freed, hrelease, hreturned⟩ :=
    (EntityStore.took_of_allocate hs.entities hallocate).returned
  have hmake : s.makeEntity a world =
      (.error (.tableFull archetype.table.maxRows), { s with entities := freed }) := by
    simp [makeEntity, archetype_eq_ok.2 h, hallocate, hrow, hrelease]
  exact ⟨_, _, hmake, .full h hallocate hrelease hreturned hrows rfl⟩

/-- The row is claimed and becomes the location of the slot that was taken. -/
theorem making_of_row (hs : s.WellFormed) (h : s.archetypes[a.index]? = some archetype)
    (hallocate : s.entities.allocate = some (e, taken)) {row : Nat} {table : Table}
    (hrow : archetype.table.allocRow = .ok (row, table)) (world : WorldId) :
    ∃ answer s', s.makeEntity a world = (answer, s') ∧ s.Making a world s' answer := by
  obtain ⟨rfl, hrows, hle, hshape, hbytes⟩ := Table.took_of_allocRows hrow
  have htook := EntityStore.took_of_allocate hs.entities hallocate
  have hlt : archetype.table.numRows < archetype.table.maxRows :=
    Nat.lt_of_succ_le (hrows.symm.trans_le hle)
  have h' : (s.setTable a table).archetypes[a.index]? = some { archetype with table } := by
    rw [archetypes_setTable h, if_pos rfl]
  have hs' := hs.setTable h hshape (hshape.maxRows.symm ▸ hle)
  obtain ⟨table', hclaim, hshape', hrows', hs'', hview⟩ :=
    claimRow_ok hs' h' (hshape.maxRows.symm ▸ hlt) e world
  rw [setTable_setTable] at hs'' hview
  rw [view_setTable_of_bytesAt h hbytes, hrows, ← rows_view h] at hview
  obtain ⟨placed, hplace, hsettled⟩ := htook.settled ⟨a, archetype.table.numRows⟩
  have hmake : s.makeEntity a world =
      (.ok e, { s.setTable a table' with entities := placed }) := by
    simp [makeEntity, archetype_eq_ok.2 h, hallocate, hrow, hclaim, hplace, Except.toOption]
  have hslots : placed.slotAt = (s.view.settle e a world).slots := by
    rw [hsettled.slotAt, ← rows_view h]
    rfl
  have hrows'' : (s.setTable a table').view.rows = (s.view.settle e a world).rows := by
    rw [hview]
    rfl
  have hcells : (s.setTable a table').view.cells = (s.view.settle e a world).cells := by
    rw [hview]
    rfl
  exact ⟨_, _, hmake, .made h hallocate hplace htook.free hlt (hrows'.trans hrows)
    (hshape'.maxRows.trans hshape.maxRows) rfl
    (StorageView.ext hslots hsettled.liveCount hrows'' hcells) (hs''.setEntities hsettled.sound)⟩

theorem making (hs : s.WellFormed) (a : ArchetypeId) (world : WorldId) :
    ∃ answer s', s.makeEntity a world = (answer, s') ∧ s.Making a world s' answer := by
  cases h : s.archetypes[a.index]? with
  | none =>
      have hmake : s.makeEntity a world = (.error (.unknownArchetype a), s) := by
        simp [makeEntity, Storage.archetype, h]
      exact ⟨_, _, hmake, .unknown h rfl⟩
  | some archetype =>
      cases hallocate : s.entities.allocate with
      | none =>
          have hmake : s.makeEntity a world =
              (.error (.entityCapacity s.config.maxEntities), s) := by
            simp [makeEntity, archetype_eq_ok.2 h, hallocate]
          exact ⟨_, _, hmake, .exhausted h hallocate rfl⟩
      | some result =>
          obtain ⟨e, taken⟩ := result
          cases hrow : archetype.table.allocRow with
          | error error => exact making_of_full hs h hallocate hrow world
          | ok result => exact making_of_row hs h hallocate hrow world

end Storage
end Lockstep
