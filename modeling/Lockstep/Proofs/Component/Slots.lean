import Lockstep.Component.History
import Mathlib.Algebra.Order.Ring.Nat

/-!
# Slots of a component registry

A registration fills one free slot and leaves all others as they are.  No slot before the
hint is free, so the search from the hint on finds the lowest free slot of all.
-/

namespace Lockstep
namespace ComponentRegistry

variable {r r' : ComponentRegistry} {id : ComponentId} {info : TypeInfo} {type : ValueType}
  {i j : Nat}

theorem index_ofNat {slot : Nat} (h : slot < 2 ^ 32) :
    (⟨UInt32.ofNat slot⟩ : ComponentId).index = slot :=
  UInt32.toNat_ofNat_of_lt' h

theorem info?_eq_some : r.info? id = some info ↔ r.slots[id.index]? = some (some info) := by
  rw [info?]
  cases r.slots[id.index]? <;> simp

/-- Filling a free slot keeps the layouts that are known. -/
theorem info?_of_filled {slot : Nat} (hfree : r.slots[slot]? = some none)
    (hslots : r'.slots = r.slots.setIfInBounds slot (some info)) (c : ComponentId)
    (found : TypeInfo) (h : r.info? c = some found) : r'.info? c = some found := by
  have hne : slot ≠ c.index := by
    rintro rfl
    rw [info?, hfree] at h
    contradiction
  rw [info?, hslots, Array.getElem?_setIfInBounds_ne hne]
  exact h

theorem free_of_freeSlot? {slot : Nat} (h : r.freeSlot? = some slot) :
    r.slots[slot]? = some none := by
  obtain ⟨i, hi, rfl⟩ := Option.map_eq_some_iff.1 h
  obtain ⟨hlt, hnone, -⟩ := List.findIdx?_eq_some_iff_getElem.1 hi
  rw [List.getElem_drop, Option.isNone_iff_eq_none] at hnone
  rw [← Array.getElem?_toList, ← hnone]
  exact List.getElem?_eq_getElem _

theorem info?_of_register (h : r.register info = .ok (id, r')) (c : ComponentId)
    (found : TypeInfo) (hfound : r.info? c = some found) : r'.info? c = some found := by
  unfold register at h
  split at h
  · split at h
    · contradiction
    · rename_i slot hslot
      obtain ⟨-, rfl⟩ := Prod.mk.inj (Except.ok.inj h)
      exact info?_of_filled (free_of_freeSlot? hslot) rfl c found hfound
  · contradiction

theorem info?_of_registerWithId (h : r.registerWithId id info = .ok r') (c : ComponentId)
    (found : TypeInfo) (hfound : r.info? c = some found) : r'.info? c = some found := by
  unfold registerWithId at h
  split at h
  · split at h
    · contradiction
    · contradiction
    · rename_i hslot
      obtain rfl := Except.ok.inj h
      exact info?_of_filled hslot rfl c found hfound
  · contradiction

theorem info?_of_registerType (h : r.registerType type = .ok (id, r'))
    (c : ComponentId) (found : TypeInfo) (hfound : r.info? c = some found) :
    r'.info? c = some found := by
  unfold registerType at h
  split at h
  · contradiction
  · cases hregister : r.register type.info with
    | error e => simp [hregister, bind, Except.bind] at h
    | ok result =>
        obtain ⟨id', registry⟩ := result
        rw [hregister] at h
        obtain ⟨-, rfl⟩ := Prod.mk.inj (Except.ok.inj h)
        exact info?_of_register hregister c found hfound

theorem info?_builtins {maxComponents : UInt32} (h : 2 ≤ maxComponents.toNat) :
    (builtins maxComponents).info? .entity = some .entity ∧
      (builtins maxComponents).info? .worldId = some .worldId := by
  have hentity : (0 : Nat) < maxComponents.toNat := by omega
  have hworld : (1 : Nat) < maxComponents.toNat := by omega
  constructor
  · simp [info?, builtins, ComponentId.index, ComponentId.entity, ComponentId.worldId, hentity]
  · simp [info?, builtins, ComponentId.index, ComponentId.entity, ComponentId.worldId, hworld]

theorem IsFilled.not_free (h : r.IsFilled i) : ¬ r.IsFree i := by
  obtain ⟨info, hinfo⟩ := h
  intro hfree
  have heq : some (some info) = some none := hinfo.symm.trans hfree
  cases Option.some.inj heq

theorem IsFree.lt_size (h : r.IsFree i) : i < r.slots.size :=
  (Array.getElem?_eq_some_iff.1 h).1

theorem IsLowestFree.unique (h : r.IsLowestFree i) (h' : r.IsLowestFree j) : i = j := by
  rcases Nat.lt_trichotomy i j with hlt | heq | hlt
  · exact absurd h.free (h'.below i hlt).not_free
  · exact heq
  · exact absurd h'.free (h.below j hlt).not_free

section Search

variable (hint : ∀ i < r.nextFree, r.IsFilled i)
include hint

theorem lowest_of_freeSlot? (h : r.freeSlot? = some i) : r.IsLowestFree i := by
  refine ⟨free_of_freeSlot? h, fun j hj => ?_⟩
  rcases Nat.lt_or_ge j r.nextFree with hbefore | hfrom
  · exact hint j hbefore
  -- From the hint on, the search has passed over the slots that are not free.
  obtain ⟨k, hk, rfl⟩ := Option.map_eq_some_iff.1 h
  obtain ⟨hlt, -, hpassed⟩ := List.findIdx?_eq_some_iff_getElem.1 hk
  obtain ⟨l, rfl⟩ := Nat.exists_eq_add_of_le hfrom
  have hl : l < k := Nat.lt_of_add_lt_add_left hj
  have hnone := hpassed l hl
  rw [List.getElem_drop] at hnone
  rw [Option.isNone_iff_eq_none] at hnone
  obtain ⟨info, hinfo⟩ := Option.ne_none_iff_exists'.1 hnone
  refine ⟨info, ?_⟩
  rw [← Array.getElem?_toList, ← hinfo]
  exact List.getElem?_eq_getElem _

theorem freeSlot?_eq_none_iff : r.freeSlot? = none ↔ ∀ i, ¬ r.IsFree i := by
  constructor
  · intro h i hfree
    have hfrom : r.nextFree ≤ i := Nat.le_of_not_lt fun hlt => (hint i hlt).not_free hfree
    have hmem : none ∈ r.slots.toList.drop r.nextFree := by
      rw [List.mem_drop_iff_getElem]
      obtain ⟨k, rfl⟩ := Nat.exists_eq_add_of_le hfrom
      obtain ⟨hlt, hnone⟩ := Array.getElem?_eq_some_iff.1 hfree
      refine ⟨k, by simpa [Nat.add_comm] using hlt, ?_⟩
      simpa [Nat.add_comm] using hnone
    have hnot := List.findIdx?_eq_none_iff.1 (Option.map_eq_none_iff.1 h) none hmem
    contradiction
  · intro h
    cases hslot : r.freeSlot? with
    | none => rfl
    | some i => exact absurd (free_of_freeSlot? hslot) (h i)

end Search

/-! ## What a registration does -/

/-- What the registration of a layout does. -/
inductive Registered (r : ComponentRegistry) (info : TypeInfo) :
    Except StorageError (ComponentId × ComponentRegistry) → Prop
  | invalid (hinvalid : info.isValid = false) :
      Registered r info (.error (.invalidLayout info.alignment info.numBytes))
  | full (hvalid : info.isValid = true) (hfull : r.freeSlot? = none) :
      Registered r info (.error (.componentCapacity r.capacity))
  | fills {slot : Nat} (hvalid : info.isValid = true) (hslot : r.freeSlot? = some slot) :
      Registered r info (.ok (⟨UInt32.ofNat slot⟩,
        { r with slots := r.slots.setIfInBounds slot (some info), nextFree := slot + 1 }))

theorem registered (r : ComponentRegistry) (info : TypeInfo) :
    r.Registered info (r.register info) := by
  unfold register
  cases hvalid : info.isValid with
  | false => exact .invalid hvalid
  | true =>
      rw [if_pos rfl]
      cases hslot : r.freeSlot? with
      | none => exact .full hvalid hslot
      | some slot => exact .fills hvalid hslot

/-- A call that fills the slot `id`, and no other. -/
structure Fills (r : ComponentRegistry) (x : RegistryExchange) (id : ComponentId) (info : TypeInfo)
    (r' : ComponentRegistry) : Prop where
  fills : x.fills? = some (id, info)
  free : r.IsFree id.index
  slots : r'.slots = r.slots.setIfInBounds id.index (some info)
  hint : r'.nextFree = r.nextFree ∨
    r'.nextFree = id.index + 1 ∧ r.freeSlot? = some id.index
  types : (x.names? = none ∧ r'.byType = r.byType) ∨
    ∃ type, x.names? = some (type, id) ∧ type.info = info ∧ r.lookup type = none ∧
      r'.byType = (type.name, id) :: r.byType

/-- A call is refused and changes nothing, or fills a slot. -/
theorem perform_cases (hsize : r.slots.size < 2 ^ 32) (call : RegistryCall) :
    (∃ e, r.perform call = (.refused e, r)) ∨
      ∃ id info, r.Fills ⟨call, (r.perform call).1⟩ id info (r.perform call).2 := by
  have hindex : ∀ {slot : Nat}, r.freeSlot? = some slot →
      (⟨UInt32.ofNat slot⟩ : ComponentId).index = slot := by
    intro slot hslot
    have hfree : r.IsFree slot := free_of_freeSlot? hslot
    exact index_ofNat (Nat.lt_trans hfree.lt_size hsize)
  cases call with
  | register info =>
      rw [perform]
      generalize hresult : r.register info = result
      cases hresult ▸ r.registered info with
      | invalid | full => exact .inl ⟨_, rfl⟩
      | @fills slot _ hslot =>
          refine .inr ⟨⟨UInt32.ofNat slot⟩, info, ?_⟩
          have hid := hindex hslot
          exact ⟨rfl, hid.symm ▸ free_of_freeSlot? hslot, hid.symm ▸ rfl,
            .inr ⟨hid.symm ▸ rfl, hid.symm ▸ hslot⟩, .inl ⟨rfl, rfl⟩⟩
  | registerWithId id info =>
      rw [perform, registerWithId]
      cases info.isValid with
      | false => exact .inl ⟨_, rfl⟩
      | true =>
          rw [if_pos rfl]
          cases hslot : r.slots[id.index]? with
          | none => exact .inl ⟨_, rfl⟩
          | some slot =>
              cases slot with
              | some _ => exact .inl ⟨_, rfl⟩
              | none => exact .inr ⟨id, info, rfl, hslot, rfl, .inl rfl, .inl ⟨rfl, rfl⟩⟩
  | registerType type =>
      rw [perform, registerType]
      cases hlookup : r.lookup type with
      | some existing => exact .inl ⟨_, rfl⟩
      | none =>
          dsimp only
          generalize hresult : r.register type.info = result
          cases hresult ▸ r.registered type.info with
          | invalid | full => exact .inl ⟨_, rfl⟩
          | @fills slot _ hslot =>
              refine .inr ⟨⟨UInt32.ofNat slot⟩, type.info, ?_⟩
              have hid := hindex hslot
              exact ⟨rfl, hid.symm ▸ free_of_freeSlot? hslot, hid.symm ▸ rfl,
                .inr ⟨hid.symm ▸ rfl, hid.symm ▸ hslot⟩, .inr ⟨type, rfl, rfl, hlookup, rfl⟩⟩

end ComponentRegistry
end Lockstep
