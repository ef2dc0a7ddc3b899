import Lockstep.Trace.History
import Mathlib.Data.List.TakeDrop
import Mathlib.Data.UInt

/-!
# Records kept

A trace shows nothing but what it was asked to record since it was last reset.  If it has
dropped nothing it shows all of that, in order.
-/

namespace Lockstep

theorem PackedRecord.low_pair (a b : UInt32) : low (pair a b) = a := by
  apply UInt32.toBitVec_inj.1
  ext i hi
  simp [low, pair]

theorem PackedRecord.high_pair (a b : UInt32) : high (pair a b) = b := by
  apply UInt32.toBitVec_inj.1
  ext i hi
  have hwide : 32 + i < 64 := by omega
  have hlow : i < 64 := by omega
  have hshift : ¬ 32 + i < 32 := by omega
  simp [high, pair, hwide, hlow, hshift, BitVec.getLsbD_eq_getElem hi]

theorem DeviceRecord.unpack_pack (r : DeviceRecord) : r.pack.unpack = r := by
  simp only [PackedRecord.unpack, pack, PackedRecord.low_pair, PackedRecord.high_pair]

theorem DeviceEvent.ofRaw?_raw (event : DeviceEvent) : ofRaw? event.raw = some event := by
  cases event <;> rfl

theorem DeviceEvent.isBlock_of_isNode {event : DeviceEvent} (h : event.isNode = true) :
    event.isBlock = false := by
  cases event <;> first | rfl | contradiction

theorem DeviceEvent.isNode_of_isBlock {event : DeviceEvent} (h : event.isBlock = true) :
    event.isNode = false := by
  cases event <;> first | rfl | contradiction

namespace TraceNote

@[simp] theorem nodeMarks_append (first later : List TraceNote) :
    nodeMarks (first ++ later) = nodeMarks first ++ nodeMarks later := by
  simp [nodeMarks]

@[simp] theorem blockMarks_append (b : Nat) (first later : List TraceNote) :
    blockMarks b (first ++ later) = blockMarks b first ++ blockMarks b later := by
  simp [blockMarks]

theorem nodeMarks_eq_map {notes : List TraceNote}
    (h : ∀ n ∈ notes, n.mark.event.isNode = true) : nodeMarks notes = notes.map mark := by
  apply List.filter_eq_self.2
  intro m hm
  obtain ⟨n, hn, rfl⟩ := List.mem_map.1 hm
  exact h n hn

theorem blockMarks_eq_nil {notes : List TraceNote}
    (h : ∀ n ∈ notes, n.mark.event.isBlock = false) (b : Nat) : blockMarks b notes = [] := by
  apply List.filter_eq_nil_iff.2
  intro m hm
  obtain ⟨n, hn, rfl⟩ := List.mem_map.1 hm
  rw [h n (List.mem_filter.1 hn).1]
  exact Bool.false_ne_true

theorem map_mark_map (marks : List Mark) (origin : TraceOrigin) :
    (marks.map (TraceNote.mk · origin)).map mark = marks := by
  rw [List.map_map]
  exact List.map_id _

theorem nodeMarks_map {marks : List Mark} (origin : TraceOrigin)
    (h : ∀ m ∈ marks, m.event.isNode = false) : nodeMarks (marks.map (⟨·, origin⟩)) = [] := by
  rw [nodeMarks, map_mark_map]
  apply List.filter_eq_nil_iff.2
  intro m hm
  rw [h m hm]
  exact Bool.false_ne_true

theorem blockMarks_map {marks : List Mark} (origin : TraceOrigin)
    (h : ∀ m ∈ marks, m.event.isBlock = true) (b : Nat) :
    blockMarks b (marks.map (⟨·, origin⟩)) = if origin.block.toNat = b then marks else [] := by
  have hfilter : (marks.map (TraceNote.mk · origin)).filter (·.origin.block.toNat == b) =
      if origin.block.toNat = b then marks.map (TraceNote.mk · origin) else [] := by
    split <;> simp_all
  rw [blockMarks, hfilter]
  split
  · rw [map_mark_map]
    exact List.filter_eq_self.2 h
  · rfl

end TraceNote

namespace DeviceTrace

variable {t : DeviceTrace} {notes : List TraceNote} {n : TraceNote}

/-- The record that a note asks for. -/
def recordOf (t : DeviceTrace) (n : TraceNote) : DeviceRecord :=
  ⟨n.mark.event.raw, n.mark.func.raw, n.mark.count, n.mark.node.raw, n.origin.block,
    n.origin.group, t.now⟩

theorem note?_recordOf (t : DeviceTrace) (n : TraceNote) : (t.recordOf n).note? = some n := by
  simp only [DeviceRecord.note?, DeviceRecord.kind?, recordOf, DeviceEvent.ofRaw?_raw,
    Option.map_some]

/-- A trace that has kept all it was asked to record. -/
structure Holds (t : DeviceTrace) (notes : List TraceNote) : Prop where
  enabled : t.enabled = true
  dropped : t.dropped = 0
  len : t.len.toNat = notes.length
  len_le_capacity : t.len ≤ t.capacity
  len_le_size : t.len.toNat ≤ t.slots.size
  shows : t.Shows notes

theorem append_of_lt (henabled : t.enabled = true) (hroom : t.len < t.capacity)
    (r : DeviceRecord) :
    t.append r = { t with len := t.len + 1 }.setSlot t.len.toNat r.pack := by
  simp only [append, henabled, if_true, hroom]

theorem append_of_not_lt (henabled : t.enabled = true) (hfull : ¬ t.len < t.capacity)
    (r : DeviceRecord) :
    t.append r = { t with len := t.len + 1, dropped := t.dropped + 1 } := by
  simp only [append, henabled, if_true, hfull, if_false]

theorem note_of_lt (henabled : t.enabled = true) (hroom : t.len < t.capacity) :
    t.note n = { t with len := t.len + 1 }.setSlot t.len.toNat (t.recordOf n).pack :=
  append_of_lt henabled hroom _

theorem note_of_not_lt (henabled : t.enabled = true) (hfull : ¬ t.len < t.capacity) :
    t.note n = { t with len := t.len + 1, dropped := t.dropped + 1 } :=
  append_of_not_lt henabled hfull _

theorem dropped_note (t : DeviceTrace) (n : TraceNote) :
    (t.note n).dropped = t.dropped ∨ (t.note n).dropped = t.dropped + 1 := by
  simp only [note, record, append, setSlot]
  repeat' split
  all_goals first | exact .inl rfl | exact .inr rfl

theorem slots_setSlot {i : Nat} (hi : i ≤ t.slots.size) (p : PackedRecord) :
    (t.setSlot i p).slots.toList.take (i + 1) = t.slots.toList.take i ++ [p] ∧
      i + 1 ≤ (t.setSlot i p).slots.size := by
  unfold setSlot
  split
  · rename_i hlt
    refine ⟨?_, by simpa using Nat.succ_le_of_lt hlt⟩
    rw [Array.toList_setIfInBounds, List.take_add_one, List.take_set_of_le (Nat.le_refl i)]
    simp [hlt]
  · rename_i hge
    obtain rfl : i = t.slots.size := by omega
    simp [List.take_of_length_le]

theorem setSlot_eq (t : DeviceTrace) (i : Nat) (p : PackedRecord) :
    ∃ slots, t.setSlot i p = { t with slots } := by
  unfold setSlot
  split
  · exact ⟨_, rfl⟩
  · exact ⟨_, rfl⟩

theorem size_setSlot_le {i bound : Nat} (hsize : t.slots.size ≤ bound) (hi : i < bound)
    (p : PackedRecord) : (t.setSlot i p).slots.size ≤ bound := by
  unfold setSlot
  split
  · rwa [Array.size_setIfInBounds]
  · rename_i hfar
    rw [Array.size_push]
    omega

theorem len_succ (hroom : t.len < t.capacity) : (t.len + 1).toNat = t.len.toNat + 1 := by
  have hlt := UInt32.lt_iff_toNat_lt.1 hroom
  rw [UInt32.toNat_add]
  exact Nat.mod_eq_of_lt ((Nat.succ_le_of_lt hlt).trans_lt t.capacity.toNat_lt)

/-- A record that has a place is kept behind the others. -/
theorem append_kept (henabled : t.enabled = true) (hroom : t.len < t.capacity)
    (hfilled : t.len.toNat ≤ t.slots.size) (r : DeviceRecord) :
    ∃ slots, t.append r = { t with len := t.len + 1, slots } ∧ t.len.toNat + 1 ≤ slots.size ∧
      (t.append r).records = t.records ++ [r] := by
  obtain ⟨slots, hslots⟩ := setSlot_eq { t with len := t.len + 1 } t.len.toNat r.pack
  obtain ⟨htake, hsize⟩ := slots_setSlot (t := { t with len := t.len + 1 }) hfilled r.pack
  rw [hslots] at htake hsize
  rw [append_of_lt henabled hroom, hslots]
  refine ⟨slots, rfl, hsize, ?_⟩
  rw [records, len_succ hroom, htake, List.map_append, List.map_singleton,
    DeviceRecord.unpack_pack]
  rfl

/-- What is recorded and not dropped stands at the end. -/
theorem Holds.note (h : t.Holds notes) (hkept : (t.note n).dropped = 0) :
    (t.note n).Holds (notes ++ [n]) := by
  by_cases hroom : t.len < t.capacity
  · have hlt := UInt32.lt_iff_toNat_lt.1 hroom
    have hnext := len_succ hroom
    obtain ⟨slots, hnote, hsize, hrecords⟩ :=
      append_kept h.enabled hroom h.len_le_size (t.recordOf n)
    have hshows : (t.note n).Shows (notes ++ [n]) := by
      rw [Shows, show (t.note n).records = _ from hrecords, List.map_append, h.shows,
        List.map_append, List.map_singleton, List.map_singleton, note?_recordOf]
    have hsame : t.note n = { t with len := t.len + 1, slots } := hnote
    rw [hsame] at hshows ⊢
    refine ⟨h.enabled, h.dropped, ?_, ?_, ?_, hshows⟩
    · rw [hnext, h.len, List.length_append, List.length_singleton]
    · rw [UInt32.le_iff_toNat_le, hnext]
      exact hlt
    · rw [hnext]
      exact hsize
  · rw [note_of_not_lt h.enabled hroom] at hkept
    have hone : (t.dropped + 1 : UInt64) = 0 := hkept
    rw [h.dropped] at hone
    contradiction

theorem noteAll_cons (t : DeviceTrace) (n : TraceNote) (notes : List TraceNote) :
    t.noteAll (n :: notes) = (t.note n).noteAll notes := rfl

/-- A few records cannot drop so many that the count comes back to zero. -/
theorem dropped_le_noteAll (notes : List TraceNote)
    (hfew : t.dropped.toNat + notes.length < 2 ^ 64) :
    t.dropped.toNat ≤ (t.noteAll notes).dropped.toNat := by
  induction notes generalizing t with
  | nil => exact Nat.le_refl _
  | cons n notes ih =>
      rw [List.length_cons] at hfew
      have hstep : t.dropped.toNat ≤ (t.note n).dropped.toNat ∧
          (t.note n).dropped.toNat ≤ t.dropped.toNat + 1 := by
        rcases dropped_note t n with h | h
        · rw [h]
          omega
        · have hadd : (t.dropped + 1).toNat = t.dropped.toNat + 1 :=
            (UInt64.toNat_add ..).trans (Nat.mod_eq_of_lt (by change _ + 1 < _; omega))
          rw [h, hadd]
          omega
      exact hstep.1.trans (ih (by omega))

theorem Holds.noteAll (h : t.Holds notes) {more : List TraceNote} (hfew : more.length < 2 ^ 32)
    (hkept : (t.noteAll more).dropped = 0) : (t.noteAll more).Holds (notes ++ more) := by
  induction more generalizing t notes with
  | nil => rwa [List.append_nil]
  | cons n more ih =>
      rw [List.length_cons] at hfew
      have hone : (t.note n).dropped.toNat ≤ 1 := by
        rcases dropped_note t n with hn | hn <;> rw [hn, h.dropped] <;> decide
      have hle := dropped_le_noteAll (t := t.note n) more (by omega)
      rw [noteAll_cons] at hkept
      rw [hkept] at hle
      have hn : (t.note n).dropped = 0 := UInt64.toNat_inj.1 (Nat.le_zero.1 hle)
      rw [noteAll_cons, ← List.singleton_append, ← List.append_assoc]
      exact ih (h.note hn) (by omega) hkept

/-- A trace that is reset starts anew, with the calibration. -/
theorem holds_reset (henabled : t.enabled = true) {more : List TraceNote}
    (hfew : more.length + 1 < 2 ^ 32) (hkept : (t.reset.noteAll more).dropped = 0) :
    (t.reset.noteAll more).Holds (.calibration :: more) := by
  have hempty : { t with len := 0, dropped := 0 }.Holds [] :=
    ⟨henabled, rfl, rfl, UInt32.le_iff_toNat_le.2 (Nat.zero_le _), Nat.zero_le _, rfl⟩
  have hfew : (TraceNote.calibration :: more).length < 2 ^ 32 := hfew
  exact hempty.noteAll hfew hkept

/-! ## Where records come from -/

/-- A buffer of no more than its capacity, with no records but those of these notes. -/
structure ShowsOnly (t : DeviceTrace) (notes : List TraceNote) : Prop where
  size_le : t.slots.size ≤ t.capacity.toNat
  mem : ∀ r ∈ t.records, ∃ n ∈ notes, r.note? = some n

theorem mem_setSlot {i : Nat} {p q : PackedRecord}
    (h : q ∈ (t.setSlot i p).slots.toList.take (i + 1)) :
    q ∈ t.slots.toList.take i ∨ q = p := by
  rcases Nat.lt_or_ge t.slots.size i with hfar | hnear
  · rw [setSlot, if_neg hfar.le.not_gt, Array.toList_push] at h
    rw [List.take_of_length_le (by simpa using hfar.le)]
    simpa using List.mem_of_mem_take h
  · rw [(slots_setSlot hnear p).1] at h
    simpa using h

theorem ShowsOnly.note (h : t.ShowsOnly notes) : (t.note n).ShowsOnly (notes ++ [n]) := by
  have hmono : ∀ r ∈ t.records, ∃ n' ∈ notes ++ [n], r.note? = some n' := by
    intro r hr
    obtain ⟨n', hn', hnote⟩ := h.mem r hr
    exact ⟨n', List.mem_append_left _ hn', hnote⟩
  cases henabled : t.enabled with
  | false =>
      have hsame : t.note n = t := by simp [DeviceTrace.note, record, append, henabled]
      rw [hsame]
      exact ⟨h.size_le, hmono⟩
  | true =>
      by_cases hroom : t.len < t.capacity
      · have hlt := UInt32.lt_iff_toNat_lt.1 hroom
        obtain ⟨slots, hslots⟩ :=
          setSlot_eq { t with len := t.len + 1 } t.len.toNat (t.recordOf n).pack
        have hsize := size_setSlot_le (t := { t with len := t.len + 1 }) h.size_le hlt
          (t.recordOf n).pack
        have hmem := fun q => mem_setSlot (t := { t with len := t.len + 1 })
          (i := t.len.toNat) (p := (t.recordOf n).pack) (q := q)
        rw [note_of_lt henabled hroom]
        rw [hslots] at hsize hmem ⊢
        refine ⟨hsize, fun r hr => ?_⟩
        obtain ⟨q, hq, rfl⟩ := List.mem_map.1 hr
        rw [len_succ hroom] at hq
        rcases hmem q hq with hold | rfl
        · exact hmono _ (List.mem_map_of_mem hold)
        · rw [DeviceRecord.unpack_pack]
          exact ⟨n, List.mem_append_right _ (List.mem_singleton_self _), note?_recordOf t n⟩
      · have hfull : t.slots.toList.length ≤ t.len.toNat :=
          h.size_le.trans (UInt32.le_iff_toNat_le.1 (UInt32.not_lt.1 hroom))
        rw [note_of_not_lt henabled hroom]
        refine ⟨h.size_le, fun r hr => ?_⟩
        obtain ⟨q, hq, rfl⟩ := List.mem_map.1 hr
        have hold : q ∈ t.slots.toList.take t.len.toNat := by
          rw [List.take_of_length_le hfull]
          exact List.mem_of_mem_take hq
        exact hmono _ (List.mem_map_of_mem hold)

theorem ShowsOnly.noteAll (h : t.ShowsOnly notes) (more : List TraceNote) :
    (t.noteAll more).ShowsOnly (notes ++ more) := by
  induction more generalizing t notes with
  | nil => rwa [List.append_nil]
  | cons n more ih =>
      rw [noteAll_cons, List.append_cons]
      exact ih h.note

/-- Whatever was in a trace before, after a reset it shows nothing of it. -/
theorem showsOnly_reset (hsize : t.slots.size ≤ t.capacity.toNat) (more : List TraceNote) :
    (t.reset.noteAll more).ShowsOnly (.calibration :: more) := by
  have hempty : { t with len := 0, dropped := 0 }.ShowsOnly [] :=
    ⟨hsize, fun r hr => absurd hr List.not_mem_nil⟩
  exact hempty.noteAll (.calibration :: more)

end DeviceTrace
end Lockstep
