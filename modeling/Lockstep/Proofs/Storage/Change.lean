import Lockstep.Proofs.Storage.Cells
import Lockstep.Proofs.Storage.Slots
import Lockstep.Storage.History

/-!
# Changes of a storage

What can be told of the entities of a storage: who holds each slot, how many rows of each
archetype are in use, and which bytes each component has in each row.  An exchange changes
this in one of seven ways.  An entity is located as long as its slot names a row in use and
the row names the entity.
-/

namespace Lockstep

namespace StorageExchange

variable {x : StorageExchange}

/-- Whether the exchange leaves entities, rows and values as they are. -/
def isIdle : StorageExchange → Bool
  | ⟨.clearTemporaries _, .done⟩ => false
  | ⟨.setComponent .., .done⟩ => false
  | ⟨_, .entity _⟩ => false
  | ⟨_, .destroyed true⟩ => false
  | ⟨_, .rows _⟩ => false
  | _ => true

theorem destroys_of_isIdle (h : x.isIdle = true) (e : Entity) : x.destroys e = false := by
  unfold destroys
  split
  · contradiction
  · rfl

theorem clears_of_isIdle (h : x.isIdle = true) (a : ArchetypeId) : x.clears a = false := by
  unfold clears
  split
  · contradiction
  · rfl

theorem makesIn_of_isIdle (h : x.isIdle = true) (a : ArchetypeId) : x.makesIn a = false := by
  unfold makesIn
  split
  · contradiction
  · rfl

theorem makes_of_isIdle (h : x.isIdle = true) : x.makes = false := by
  unfold makes
  split
  · contradiction
  · rfl

theorem frees_of_isIdle (h : x.isIdle = true) : x.frees = false := by
  unfold frees
  split
  · contradiction
  · rfl

theorem sets?_of_isIdle (h : x.isIdle = true) (e : Entity) (c : ComponentId) :
    x.sets? e c = none := by
  unfold sets?
  split
  · contradiction
  · rfl

end StorageExchange

/-- What the calls on entities can tell of a storage. -/
@[ext]
structure StorageView where
  slots : UInt32 → EntitySlot
  live : Nat
  rows : ArchetypeId → Nat
  cells : EntityLocation → ComponentId → Option (List UInt8)

namespace StorageView

def empty : StorageView := ⟨fun _ => ⟨0, .free⟩, 0, fun _ => 0, fun _ _ => none⟩

variable {v v' : StorageView} {x : StorageExchange} {r : Option UInt32} {a : ArchetypeId}
  {e e' : Entity} {location location' : EntityLocation} {c : ComponentId}

structure Located (v : StorageView) (e : Entity) (location : EntityLocation) : Prop where
  slot : v.slots e.index = ⟨e.generation, .live (some location)⟩
  row_lt : location.row < v.rows location.archetype
  owner : (v.cells location .entity).map Entity.ofBytes = some e

theorem Located.location_unique (h : v.Located e location) (h' : v.Located e location') :
    location = location' := by
  simpa using h.slot.symm.trans h'.slot

theorem Located.entity_unique (h : v.Located e location) (h' : v.Located e' location) :
    e = e' :=
  Option.some.inj (h.owner.symm.trans h'.owner)

/-- Handles to a slot in its present generation are equal. -/
theorem eq_of_index {occupancy occupancy' : Occupancy}
    (h : v.slots e.index = ⟨e.generation, occupancy⟩)
    (h' : v.slots e'.index = ⟨e'.generation, occupancy'⟩) (hindex : e.index = e'.index) :
    e = e' := by
  rw [hindex, h'] at h
  cases e
  cases e'
  obtain ⟨rfl, -⟩ := EntitySlot.mk.inj h
  exact congrArg (Entity.mk · _) hindex

theorem ne_of_free {i generation : UInt32} {found : Option EntityLocation}
    (hfree : v.slots i = ⟨generation, .free⟩)
    (hlive : v.slots e.index = ⟨e.generation, .live found⟩) :
    e.index ≠ i := by
  rintro rfl
  rw [hfree] at hlive
  simp at hlive

def setSlot (v : StorageView) (i : UInt32) (slot : EntitySlot) : StorageView :=
  { v with slots := Function.update v.slots i slot }

def setLive (v : StorageView) (live : Nat) : StorageView := { v with live }

def setRows (v : StorageView) (a : ArchetypeId) (rows : Nat) : StorageView :=
  { v with rows := Function.update v.rows a rows }

def write (v : StorageView) (location : EntityLocation) (c : ComponentId) (bytes : List UInt8) :
    StorageView :=
  { v with cells := fun location' c' =>
      if location' = location ∧ c' = c then some bytes else v.cells location' c' }

theorem slots_setSlot_self (v : StorageView) (i : UInt32) (slot : EntitySlot) :
    (v.setSlot i slot).slots i = slot := Function.update_self ..

theorem slots_setSlot_ne {i j : UInt32} {slot : EntitySlot} (h : j ≠ i) :
    (v.setSlot i slot).slots j = v.slots j := Function.update_of_ne h ..

theorem rows_setRows_self (v : StorageView) (a : ArchetypeId) (rows : Nat) :
    (v.setRows a rows).rows a = rows := Function.update_self ..

theorem rows_setRows_ne {a a' : ArchetypeId} {rows : Nat} (h : a' ≠ a) :
    (v.setRows a rows).rows a' = v.rows a' := Function.update_of_ne h ..

theorem cells_write_self (v : StorageView) (location : EntityLocation) (c : ComponentId)
    (bytes : List UInt8) : (v.write location c bytes).cells location c = some bytes :=
  if_pos ⟨rfl, rfl⟩

theorem cells_write_ne {bytes : List UInt8} {c' : ComponentId}
    (h : location ≠ location' ∨ c ≠ c') :
    (v.write location' c' bytes).cells location c = v.cells location c :=
  if_neg fun hboth => h.elim (· hboth.1) (· hboth.2)

/-- A slot that is taken although some slot was freed is another one. -/
theorem slot_of_freed {i generation : UInt32} {found : Option EntityLocation}
    (h : (v.setSlot i ⟨generation, .free⟩).slots e.index = ⟨e.generation, .live found⟩) :
    e.index ≠ i ∧ v.slots e.index = ⟨e.generation, .live found⟩ := by
  have hne : e.index ≠ i := by
    rintro rfl
    rw [slots_setSlot_self] at h
    simp at h
  rw [slots_setSlot_ne hne] at h
  exact ⟨hne, h⟩

/-- The entity takes the next row of the archetype. -/
def settle (v : StorageView) (e : Entity) (a : ArchetypeId) (world : WorldId) : StorageView :=
  (((((v.setSlot e.index ⟨e.generation, .live (some ⟨a, v.rows a⟩)⟩).setLive (v.live + 1)).setRows
    a (v.rows a + 1)).write ⟨a, v.rows a⟩ .entity e.bytes).write ⟨a, v.rows a⟩ .worldId
      (Bytes.ofUInt32 world.raw))

section settle

variable (v : StorageView) (e : Entity) (a : ArchetypeId) (world : WorldId)

theorem slots_settle_self :
    (v.settle e a world).slots e.index = ⟨e.generation, .live (some ⟨a, v.rows a⟩)⟩ :=
  v.slots_setSlot_self ..

theorem rows_settle_self : (v.settle e a world).rows a = v.rows a + 1 := v.rows_setRows_self ..

theorem owner_settle : (v.settle e a world).cells ⟨a, v.rows a⟩ .entity = some e.bytes :=
  (cells_write_ne (.inr (by decide))).trans (cells_write_self ..)

theorem world_settle :
    (v.settle e a world).cells ⟨a, v.rows a⟩ .worldId = some (Bytes.ofUInt32 world.raw) :=
  cells_write_self ..

theorem located_settle : (v.settle e a world).Located e ⟨a, v.rows a⟩ where
  slot := v.slots_settle_self e a world
  row_lt := (v.rows_settle_self e a world).ge.trans_lt' (Nat.lt_succ_self _)
  owner := by rw [owner_settle, Option.map_some, Entity.ofBytes_bytes]

end settle

variable {world : WorldId}

theorem slots_settle_ne {i : UInt32} (h : i ≠ e.index) :
    (v.settle e a world).slots i = v.slots i := slots_setSlot_ne h

theorem rows_settle_ne {a' : ArchetypeId} (h : a' ≠ a) :
    (v.settle e a world).rows a' = v.rows a' := rows_setRows_ne h

theorem cells_settle_ne (h : location ≠ ⟨a, v.rows a⟩) (c : ComponentId) :
    (v.settle e a world).cells location c = v.cells location c :=
  (cells_write_ne (.inl h)).trans (cells_write_ne (.inl h))

theorem cells_settle_user (h : c.isBuiltin = false) :
    (v.settle e a world).cells location c = v.cells location c := by
  obtain ⟨hentity, hworld⟩ : c ≠ .entity ∧ c ≠ .worldId := by
    simpa [ComponentId.isBuiltin] using h
  exact (cells_write_ne (.inr hworld)).trans (cells_write_ne (.inr hentity))

theorem row_lt_settle (h : location ≠ ⟨a, v.rows a⟩) :
    location.row < (v.settle e a world).rows location.archetype ↔
      location.row < v.rows location.archetype := by
  by_cases ha : location.archetype = a
  · subst ha
    have hrow : location.row ≠ v.rows location.archetype := fun hrow => h (hrow ▸ rfl)
    rw [rows_settle_self]
    omega
  · rw [rows_settle_ne ha]

/-- What an exchange does, and the slot that it gives back. -/
inductive Change (v : StorageView) : StorageExchange → Option UInt32 → StorageView → Prop
  /-- An archetype without rows may come about, with zeros in its cells. -/
  | adds {x : StorageExchange} {cells : EntityLocation → ComponentId → Option (List UInt8)}
      (idle : x.isIdle = true)
      (old_or_zero : ∀ location c, cells location c = v.cells location c ∨
        v.rows location.archetype = 0 ∧ v.cells location c = none ∧
          ∀ bytes, cells location c = some bytes → ∀ b ∈ bytes, b = 0) :
      Change v x none { v with cells }
  /-- A slot is taken and given back, since there is no row for it. -/
  | returns {x : StorageExchange} {i generation : UInt32} (idle : x.isIdle = true)
      (free : v.slots i = ⟨generation, .free⟩) :
      Change v x (some i) (v.setSlot i ⟨generation + 1, .free⟩)
  | makes {e : Entity} {a : ArchetypeId} {world : WorldId}
      (free : v.slots e.index = ⟨e.generation, .free⟩) :
      Change v ⟨.makeEntity a world, .entity e⟩ none (v.settle e a world)
  | destroys {e : Entity} {found : Option EntityLocation} {live : Nat}
      (slot : v.slots e.index = ⟨e.generation, .live found⟩) (count : v.live = live + 1) :
      Change v ⟨.destroyEntity e, .destroyed true⟩ (some e.index)
        ((v.setSlot e.index ⟨e.generation + 1, .free⟩).setLive live)
  | clears {a : ArchetypeId} :
      Change v ⟨.clearTemporaries a, .done⟩ none (v.setRows a 0)
  | sets {e : Entity} {location : EntityLocation} {c : ComponentId} {value : Value}
      (located : v.Located e location) :
      Change v ⟨.setComponent e c value, .done⟩ none (v.write location c value.bytes)
  | takes {a : ArchetypeId} {count : Nat} :
      Change v ⟨.allocRows a count, .rows (v.rows a)⟩ none (v.setRows a (v.rows a + count))

namespace Change

/-! ## Entities -/

theorem settles (h : v.Change ⟨.makeEntity a world, .entity e⟩ r v') :
    v' = v.settle e a world := by
  cases h with
  | adds idle => contradiction
  | returns idle => contradiction
  | makes => rfl

/-- An entity that is located after an exchange was made by it, or was located before and
neither destroyed nor cleared away. -/
theorem made_or_located (h : v.Change x r v') (howner : x.call.setsOwner = false)
    (htakes : x.call.takesRows = false) (hafter : v'.Located e location) :
    (∃ world, x = ⟨.makeEntity location.archetype world, .entity e⟩) ∨
      v.Located e location ∧ x.destroys e = false ∧ x.clears location.archetype = false := by
  obtain ⟨hslot, hrow, hcell⟩ := hafter
  cases h with
  | adds idle old_or_zero =>
      refine .inr ⟨⟨hslot, hrow, ?_⟩, x.destroys_of_isIdle idle e, x.clears_of_isIdle idle _⟩
      rcases old_or_zero location .entity with hsame | ⟨hnone, -⟩
      · rw [← hsame]
        exact hcell
      · exact absurd (hnone ▸ hrow) (Nat.not_lt_zero _)
  | returns idle free =>
      have hold := (slot_of_freed hslot).2
      exact .inr ⟨⟨hold, hrow, hcell⟩, x.destroys_of_isIdle idle e, x.clears_of_isIdle idle _⟩
  | @makes e' a world free =>
      have hsettled := v.located_settle e' a world
      by_cases hsame : e' = e
      · subst hsame
        obtain rfl := hsettled.location_unique ⟨hslot, hrow, hcell⟩
        exact .inl ⟨world, rfl⟩
      · -- Another entity has another slot, and its own handle in another row.
        have hne : e.index ≠ e'.index := fun hindex =>
          hsame (eq_of_index hsettled.slot hslot hindex.symm)
        have hapart : location ≠ ⟨a, v.rows a⟩ := by
          rintro rfl
          exact hsame (hsettled.entity_unique ⟨hslot, hrow, hcell⟩)
        refine .inr ⟨⟨?_, (row_lt_settle hapart).1 hrow, ?_⟩, rfl, rfl⟩
        · rwa [slots_settle_ne hne] at hslot
        · rwa [cells_settle_ne hapart] at hcell
  | @destroys e' found live slot count =>
      obtain ⟨hne, hold⟩ := slot_of_freed hslot
      refine .inr ⟨⟨hold, hrow, hcell⟩, ?_, rfl⟩
      exact beq_false_of_ne fun hsame => hne (congrArg Entity.index hsame.symm)
  | @clears a =>
      have hne : location.archetype ≠ a := by
        rintro rfl
        rw [rows_setRows_self] at hrow
        exact Nat.not_lt_zero _ hrow
      rw [rows_setRows_ne hne] at hrow
      exact .inr ⟨⟨hslot, hrow, hcell⟩, rfl, beq_false_of_ne hne.symm⟩
  | @sets e' location' c value located =>
      have hc : c ≠ .entity := by simpa [StorageCall.setsOwner] using howner
      rw [cells_write_ne (.inr hc.symm)] at hcell
      exact .inr ⟨⟨hslot, hrow, hcell⟩, rfl, rfl⟩
  | takes => contradiction

/-- An entity stays where it is until it is destroyed or its archetype is cleared. -/
theorem located (h : v.Change x r v') (howner : x.call.setsOwner = false)
    (hbefore : v.Located e location) (hdestroys : x.destroys e = false)
    (hclears : x.clears location.archetype = false) : v'.Located e location := by
  obtain ⟨hslot, hrow, hcell⟩ := hbefore
  cases h with
  | adds idle old_or_zero =>
      refine ⟨hslot, hrow, ?_⟩
      rcases old_or_zero location .entity with hsame | ⟨hnone, -⟩
      · rw [← hcell]
        exact congrArg _ hsame
      · exact absurd (hnone ▸ hrow) (Nat.not_lt_zero _)
  | returns idle free =>
      exact ⟨(slots_setSlot_ne (ne_of_free free hslot)).trans hslot, hrow, hcell⟩
  | @makes e' a world free =>
      have hapart : location ≠ ⟨a, v.rows a⟩ := by
        rintro rfl
        exact Nat.lt_irrefl _ hrow
      refine ⟨(slots_settle_ne (ne_of_free free hslot)).trans hslot,
        (row_lt_settle hapart).2 hrow, ?_⟩
      rw [cells_settle_ne hapart]
      exact hcell
  | @destroys e' found live slot count =>
      have hne : e.index ≠ e'.index := fun hindex =>
        beq_eq_false_iff_ne.1 hdestroys (eq_of_index slot hslot hindex.symm)
      exact ⟨(slots_setSlot_ne hne).trans hslot, hrow, hcell⟩
  | @clears a =>
      have hne : location.archetype ≠ a := (beq_eq_false_iff_ne.1 hclears).symm
      exact ⟨hslot, (rows_setRows_ne hne).symm ▸ hrow, hcell⟩
  | @sets e' location' c value located =>
      have hc : c ≠ .entity := by simpa [StorageCall.setsOwner] using howner
      refine ⟨hslot, hrow, ?_⟩
      rw [cells_write_ne (.inr hc.symm)]
      exact hcell
  | @takes a count =>
      refine ⟨hslot, ?_, hcell⟩
      by_cases ha : location.archetype = a
      · subst ha
        rw [rows_setRows_self]
        exact Nat.lt_add_right _ hrow
      · rwa [rows_setRows_ne ha]

/-! ## Rows and values -/

theorem rows_taken {count first : Nat} (h : v.Change ⟨.allocRows a count, .rows first⟩ r v') :
    v' = v.setRows a (v.rows a + count) := by
  cases h with
  | adds idle => contradiction
  | returns idle => contradiction
  | takes => rfl

theorem rows (h : v.Change x r v') (htakes : x.call.takesRows = false) (a : ArchetypeId) :
    v'.rows a = if x.clears a then 0 else if x.makesIn a then v.rows a + 1 else v.rows a := by
  cases h with
  | adds idle => rw [x.clears_of_isIdle idle, x.makesIn_of_isIdle idle]; rfl
  | returns idle => rw [x.clears_of_isIdle idle, x.makesIn_of_isIdle idle]; rfl
  | @makes e a' world =>
      by_cases ha : a = a'
      · subst ha
        simp [StorageExchange.clears, StorageExchange.makesIn, rows_settle_self]
      · simp [StorageExchange.clears, StorageExchange.makesIn, Ne.symm ha, rows_settle_ne ha]
  | destroys => rfl
  | @clears a' =>
      by_cases ha : a = a'
      · subst ha
        simp [StorageExchange.clears, rows_setRows_self]
      · simp [StorageExchange.clears, StorageExchange.makesIn, Ne.symm ha, rows_setRows_ne ha]
  | sets => rfl
  | takes => contradiction

theorem live (h : v.Change x r v') :
    v'.live + (if x.frees then 1 else 0) = v.live + if x.makes then 1 else 0 := by
  cases h with
  | adds idle => rw [x.frees_of_isIdle idle, x.makes_of_isIdle idle]
  | returns idle => rw [x.frees_of_isIdle idle, x.makes_of_isIdle idle]; rfl
  | makes => rfl
  | destroys slot count => exact count.symm
  | clears => rfl
  | sets => rfl
  | takes => rfl

/-- A component keeps its bytes until it is set. -/
theorem cell (h : v.Change x r v') (hbefore : v.Located e location) (c : ComponentId) :
    v'.cells location c = (x.sets? e c).or (v.cells location c) := by
  cases h with
  | adds idle old_or_zero =>
      rw [x.sets?_of_isIdle idle, Option.none_or]
      rcases old_or_zero location c with hsame | ⟨hnone, -⟩
      · exact hsame
      · exact absurd (hnone ▸ hbefore.row_lt) (Nat.not_lt_zero _)
  | returns idle =>
      rw [x.sets?_of_isIdle idle, Option.none_or]
      rfl
  | @makes e' a world =>
      have hapart : location ≠ ⟨a, v.rows a⟩ := by
        rintro rfl
        exact Nat.lt_irrefl _ hbefore.row_lt
      exact cells_settle_ne hapart c
  | destroys => rfl
  | clears => rfl
  | @sets e' location' c' value located =>
      by_cases hboth : e' = e ∧ c' = c
      · obtain ⟨rfl, rfl⟩ := hboth
        obtain rfl := located.location_unique hbefore
        rw [cells_write_self, StorageExchange.sets?, if_pos ⟨rfl, rfl⟩, Option.some_or]
      · rw [StorageExchange.sets?, if_neg hboth, Option.none_or]
        -- A row has one owner, so what is set through another entity is in another row.
        apply if_neg
        rintro ⟨rfl, rfl⟩
        exact hboth ⟨located.entity_unique hbefore, rfl⟩
  | takes => rfl

end Change

/-- The rows of an archetype that are not in use hold zeros only. -/
def Fresh (v : StorageView) (a : ArchetypeId) : Prop :=
  ∀ row c bytes, v.rows a ≤ row → v.cells ⟨a, row⟩ c = some bytes → ∀ b ∈ bytes, b = 0

theorem Change.fresh (h : v.Change x r v') (hclears : x.clears a = false) (hfresh : v.Fresh a) :
    v'.Fresh a := by
  intro row c bytes hrow hcell
  cases h with
  | adds idle old_or_zero =>
      rcases old_or_zero ⟨a, row⟩ c with hsame | ⟨-, -, hzero⟩
      · exact hfresh row c bytes hrow (hsame.symm.trans hcell)
      · exact hzero bytes hcell
  | returns => exact hfresh row c bytes hrow hcell
  | @makes e a' world =>
      have hnot : ¬ row < (v.settle e a' world).rows a := Nat.not_lt.2 hrow
      have hapart : EntityLocation.mk a row ≠ ⟨a', v.rows a'⟩ := by
        intro hsame
        obtain ⟨rfl, rfl⟩ := EntityLocation.mk.inj hsame
        rw [rows_settle_self] at hnot
        exact hnot (Nat.lt_succ_self _)
      rw [cells_settle_ne hapart] at hcell
      exact hfresh row c bytes (Nat.not_lt.1 fun hlt => hnot ((row_lt_settle hapart).2 hlt)) hcell
  | destroys => exact hfresh row c bytes hrow hcell
  | @clears a' =>
      rw [rows_setRows_ne (beq_eq_false_iff_ne.1 hclears).symm] at hrow
      exact hfresh row c bytes hrow hcell
  | @sets e location c' value located =>
      have hapart : EntityLocation.mk a row ≠ location := by
        rintro rfl
        exact Nat.not_lt.2 hrow located.row_lt
      exact hfresh row c bytes hrow ((cells_write_ne (.inl hapart)).symm.trans hcell)
  | @takes a' count =>
      refine hfresh row c bytes ?_ hcell
      by_cases ha : a = a'
      · subst ha
        rw [rows_setRows_self] at hrow
        exact Nat.le_of_add_right_le hrow
      · rwa [rows_setRows_ne ha] at hrow

end StorageView
end Lockstep
