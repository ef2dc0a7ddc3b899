import Lockstep.Proofs.Trace.Kept
import Lockstep.Trace.Calls

/-!
# Laps of a trace

The counter of a trace gives out places for as long as it has not come round: up to 2 ^ 32
records, the first of them are kept that the buffer has room for, and the rest is counted.  When
it comes round, all that was kept is forgotten, and the next records take the first places
again although the buffer is full.
-/

namespace Lockstep

namespace TraceCall

variable {asked : List DeviceRecord} {r : DeviceRecord} {n : Nat}

theorem succ_within_lap (h : n % Word.size32 + 1 < Word.size32) :
    (n + 1) / Word.size32 = n / Word.size32 ∧
      (n + 1) % Word.size32 = n % Word.size32 + 1 := by
  rw [Word.size32] at *
  omega

theorem succ_starts_lap (h : Word.size32 ≤ n % Word.size32 + 1) :
    (n + 1) / Word.size32 = n / Word.size32 + 1 ∧ (n + 1) % Word.size32 = 0 := by
  rw [Word.size32] at *
  omega

theorem length_lap (asked : List DeviceRecord) :
    (lap asked).length = asked.length % Word.size32 := by
  have hdiv := Nat.div_add_mod' asked.length Word.size32
  rw [lap, List.length_drop]
  omega

theorem lap_of_lt (h : asked.length < Word.size32) : lap asked = asked := by
  rw [lap, Nat.div_eq_of_lt h, Nat.zero_mul, List.drop_zero]

theorem lap_concat_of_lt (h : asked.length % Word.size32 + 1 < Word.size32) :
    lap (asked ++ [r]) = lap asked ++ [r] := by
  obtain ⟨hdiv, -⟩ := succ_within_lap h
  rw [lap, List.length_append, List.length_singleton, hdiv]
  apply List.drop_append_of_le_length
  exact Nat.div_mul_le_self ..

theorem lap_concat_of_le (h : Word.size32 ≤ asked.length % Word.size32 + 1) :
    lap (asked ++ [r]) = [] := by
  obtain ⟨-, hmod⟩ := succ_starts_lap h
  apply List.eq_nil_of_length_eq_zero
  rwa [length_lap, List.length_append, List.length_singleton]

theorem missed_of_lt (h : n < Word.size32) (capacity : Nat) :
    missed capacity n = n - capacity := by
  rw [missed, Nat.div_eq_of_lt h, Nat.mod_eq_of_lt h, Nat.zero_mul, Nat.zero_add]

/-- One more record is missed if the buffer is full in this lap. -/
theorem missed_succ {capacity : Nat} (hcapacity : capacity < Word.size32) (n : Nat) :
    missed capacity (n + 1) =
      missed capacity n + if n % Word.size32 < capacity then 0 else 1 := by
  rcases Nat.lt_or_ge (n % Word.size32 + 1) Word.size32 with hwithin | hlast
  · obtain ⟨hdiv, hmod⟩ := succ_within_lap hwithin
    rw [missed, missed, hdiv, hmod]
    split
    · omega
    · omega
  · obtain ⟨hdiv, hmod⟩ := succ_starts_lap hlast
    have hlt := Nat.mod_lt n (show 0 < Word.size32 by decide)
    rw [missed, missed, hdiv, hmod, Nat.succ_mul, if_neg (by omega)]
    omega

end TraceCall

namespace DeviceTrace

open TraceCall

variable {t : DeviceTrace} {capacity : UInt32} {asked : List DeviceRecord}

/-- A trace that has kept of the present lap what it has room for. -/
structure Laps (capacity : UInt32) (asked : List DeviceRecord) (t : DeviceTrace) : Prop where
  enabled : t.enabled = true
  capacity_eq : t.capacity = capacity
  len : t.len.toNat = asked.length % Word.size32
  dropped : t.dropped.toNat = missed capacity.toNat asked.length % Word.size64
  size_le : t.slots.size ≤ capacity.toNat
  filled : min t.len.toNat capacity.toNat ≤ t.slots.size
  records : t.records = (lap asked).take capacity.toNat

namespace Laps

theorem start (henabled : t.enabled = true) (hcapacity : t.capacity = capacity)
    (hsize : t.slots.size ≤ capacity.toNat) : Laps capacity [] { t with len := 0, dropped := 0 } where
  enabled := henabled
  capacity_eq := hcapacity
  len := rfl
  dropped := by
    rw [missed_of_lt (by decide), List.length_nil, Nat.zero_sub]
    rfl
  size_le := hsize
  filled := (Nat.min_le_left ..).trans (Nat.zero_le _)
  records := by
    rw [lap_of_lt (by decide), List.take_nil]
    rfl

variable (h : Laps capacity asked t)
include h

theorem lt_capacity_iff :
    t.len < t.capacity ↔ asked.length % Word.size32 < capacity.toNat := by
  rw [UInt32.lt_iff_toNat_lt, h.len, h.capacity_eq]

/-- A record that has a place is kept behind the others of its lap. -/
theorem append_of_lt (hroom : t.len < t.capacity) (r : DeviceRecord) :
    Laps capacity (asked ++ [r]) (t.append r) := by
  have hplace := h.lt_capacity_iff.1 hroom
  have hcapacity : capacity.toNat < Word.size32 := capacity.toNat_lt
  have hwithin : asked.length % Word.size32 + 1 < Word.size32 := by omega
  have hfilled : t.len.toNat ≤ t.slots.size := by
    have hmin := h.filled
    rwa [h.len, Nat.min_eq_left hplace.le, ← h.len] at hmin
  obtain ⟨slots, happend, hsize, hrecords⟩ := append_kept h.enabled hroom hfilled r
  have hbound : slots.size ≤ capacity.toNat := by
    have hle := size_setSlot_le (t := { t with len := t.len + 1 }) h.size_le (h.len ▸ hplace)
      r.pack
    rwa [← DeviceTrace.append_of_lt h.enabled hroom, happend] at hle
  have hkept : (t.append r).records = (lap (asked ++ [r])).take capacity.toNat := by
    have hshort : (lap asked).length < capacity.toNat := by
      rw [length_lap]
      exact hplace
    rw [hrecords, h.records, lap_concat_of_lt hwithin, List.take_of_length_le hshort.le,
      List.take_of_length_le]
    rwa [List.length_append, List.length_singleton]
  rw [happend] at hkept ⊢
  refine ⟨h.enabled, h.capacity_eq, ?_, ?_, hbound, ?_, hkept⟩
  · obtain ⟨-, hmod⟩ := succ_within_lap hwithin
    rw [len_succ hroom, h.len, List.length_append, List.length_singleton, hmod]
  · rw [List.length_append, List.length_singleton, missed_succ hcapacity, if_pos hplace]
    exact h.dropped
  · rw [len_succ hroom]
    exact (Nat.min_le_left ..).trans hsize

/-- What a full buffer shows when one more place was given out.  With the last place of a lap
the count comes back to zero, and all that was kept is out of sight. -/
theorem records_of_full (hfull : capacity.toNat ≤ asked.length % Word.size32) (r : DeviceRecord) :
    (t.slots.toList.take ((asked.length + 1) % Word.size32)).map PackedRecord.unpack =
      (lap (asked ++ [r])).take capacity.toNat := by
  have hslots : t.slots.toList.length ≤ asked.length % Word.size32 := h.size_le.trans hfull
  rcases Nat.lt_or_ge (asked.length % Word.size32 + 1) Word.size32 with hwithin | hlast
  · obtain ⟨-, hmod⟩ := succ_within_lap hwithin
    have hlong : capacity.toNat ≤ (lap asked).length := by
      rw [length_lap]
      exact hfull
    have hall := h.records
    rw [DeviceTrace.records, h.len, List.take_of_length_le hslots] at hall
    rw [hmod, List.take_of_length_le (hslots.trans (Nat.le_succ _)), hall,
      lap_concat_of_lt hwithin, List.take_append_of_le_length hlong]
  · obtain ⟨-, hmod⟩ := succ_starts_lap hlast
    rw [hmod, lap_concat_of_le hlast, List.take_zero, List.take_nil]
    rfl

/-- A record that has no place is counted. -/
theorem append_of_not_lt (hroom : ¬ t.len < t.capacity) (r : DeviceRecord) :
    Laps capacity (asked ++ [r]) (t.append r) := by
  have hplace := mt h.lt_capacity_iff.2 hroom
  have hfull := Nat.not_lt.1 hplace
  have hlen : (t.len + 1).toNat = (asked.length + 1) % Word.size32 := by
    rw [UInt32.toNat_add, h.len]
    exact Nat.mod_add_mod ..
  have hfilled : capacity.toNat ≤ t.slots.size := by
    have hmin := h.filled
    rwa [h.len, Nat.min_eq_right hfull] at hmin
  rw [DeviceTrace.append_of_not_lt h.enabled hroom]
  refine ⟨h.enabled, h.capacity_eq, ?_, ?_, h.size_le, (Nat.min_le_right ..).trans hfilled, ?_⟩
  · rw [List.length_append, List.length_singleton]
    exact hlen
  · rw [List.length_append, List.length_singleton, missed_succ capacity.toNat_lt, if_neg hplace,
      UInt64.toNat_add, h.dropped]
    exact Nat.mod_add_mod ..
  · rw [DeviceTrace.records, hlen]
    exact h.records_of_full hfull r

theorem append (r : DeviceRecord) : Laps capacity (asked ++ [r]) (t.append r) := by
  by_cases hroom : t.len < t.capacity
  · exact h.append_of_lt hroom r
  · exact h.append_of_not_lt hroom r

theorem setTime (now : UInt64) : Laps capacity asked { t with now } :=
  ⟨h.enabled, h.capacity_eq, h.len, h.dropped, h.size_le, h.filled, h.records⟩

theorem perform (call : TraceCall) : Laps capacity (ask asked call) (t.perform call) := by
  cases call with
  | reset now =>
      have hempty := start h.enabled h.capacity_eq h.size_le
      exact (hempty.setTime now).append (TraceNote.calibration.recordAt now)
  | record note now => exact (h.setTime now).append (note.recordAt now)

theorem performAll (calls : List TraceCall) :
    Laps capacity (calls.foldl ask asked) (t.performAll calls) := by
  induction calls generalizing t asked with
  | nil => exact h
  | cons call calls ih => exact ih (h.perform call)

end Laps

theorem laps_new (capacity : UInt32) (calls : List TraceCall) :
    Laps capacity (TraceCall.asked calls) ((new capacity).performAll calls) := by
  have hnew : Laps capacity [] (new capacity) :=
    .start (t := new capacity) rfl rfl (Nat.zero_le _)
  exact hnew.performAll calls

/-- A trace shows, of the records that were asked for since the last reset, the first of the lap
that its counter is in, as many as the buffer holds.  The records that found no place in their
laps are counted, in 64 bits.  As long as the counter has not come round there is one lap: the
first records are shown, and all others are counted. -/
theorem keeps_lap (capacity : UInt32) (calls : List TraceCall) :
    let t := (new capacity).performAll calls
    let asked := TraceCall.asked calls
    t.records = (lap asked).take capacity.toNat ∧
    t.dropped.toNat = missed capacity.toNat asked.length % Word.size64 ∧
    (asked.length < Word.size32 →
      t.records = asked.take (min capacity.toNat asked.length) ∧
      t.dropped.toNat = asked.length - min capacity.toNat asked.length) := by
  intro t asked
  have h : Laps capacity asked t := laps_new capacity calls
  refine ⟨h.records, h.dropped, fun hfew => ⟨?_, ?_⟩⟩
  · rw [h.records, lap_of_lt hfew, ← List.take_eq_take_min]
  · rw [h.dropped, missed_of_lt hfew]
    have hword : Word.size32 ≤ Word.size64 := by decide
    rw [Nat.mod_eq_of_lt (by omega)]
    omega

namespace Sample

def started : TraceNote := ⟨⟨.blockStart, ⟨7⟩, ⟨3⟩, 99⟩, ⟨1, 6⟩⟩

/-- A reset and then so many records. -/
def calls (n : Nat) : List TraceCall := .reset 5 :: List.replicate n (.record started 8)

end Sample

open Sample in
theorem keeps_lap_sample :
    (TraceCall.asked (calls 5)).length < Word.size32 ∧
      ((new 2).performAll (calls 5)).records =
        [TraceNote.calibration.recordAt 5, started.recordAt 8] ∧
      ((new 2).performAll (calls 5)).dropped.toNat = 4 := by
  have hfew : (TraceCall.asked (calls 5)).length < Word.size32 := by decide
  obtain ⟨-, -, hfirst⟩ := keeps_lap 2 (calls 5)
  obtain ⟨hrecords, hdropped⟩ := hfirst hfew
  exact ⟨hfew, hrecords.trans (by decide), hdropped.trans (by decide)⟩

theorem foldl_ask_replicate (asked : List DeviceRecord) (n : TraceNote) (now : UInt64) (k : Nat) :
    (List.replicate k (.record n now)).foldl ask asked =
      asked ++ List.replicate k (n.recordAt now) := by
  induction k generalizing asked with
  | zero => exact (List.append_nil asked).symm
  | succ k ih =>
      rw [List.replicate_succ, List.foldl_cons, ih, List.replicate_succ, ask, List.append_assoc]
      rfl

namespace Sample

theorem asked_calls (k : Nat) :
    TraceCall.asked (calls k) =
      TraceNote.calibration.recordAt 5 :: List.replicate k (started.recordAt 8) :=
  foldl_ask_replicate _ started 8 k

/-- The last record of a lap leaves nothing. -/
theorem records_of_lap {k : Nat} (h : k + 1 = Word.size32) :
    ((new 1).performAll (calls k)).records = [] := by
  have hlength : (lap (TraceCall.asked (calls k))).length = 0 := by
    rw [length_lap, asked_calls, List.length_cons, List.length_replicate, h, Nat.mod_self]
  rw [(laps_new 1 (calls k)).records, List.eq_nil_of_length_eq_zero hlength, List.take_nil]

end Sample

open Sample in
/-- With room for one record, a reset and 2 ^ 32 - 1 records: nothing is shown, though the record
of the reset was the first that was asked for. -/
theorem full_lap_forgets :
    (TraceCall.asked (calls (2 ^ 32 - 1))).length = 2 ^ 32 ∧
      (TraceCall.asked (calls (2 ^ 32 - 1))).take (min (1 : UInt32).toNat (2 ^ 32)) =
        [TraceNote.calibration.recordAt 5] ∧
      ((new 1).performAll (calls (2 ^ 32 - 1))).records = [] := by
  have hlap : 2 ^ 32 - 1 + 1 = Word.size32 := by decide
  rw [asked_calls]
  refine ⟨?_, ?_, records_of_lap hlap⟩
  · rw [List.length_cons, List.length_replicate, hlap]
    decide
  · rw [show min (1 : UInt32).toNat (2 ^ 32) = 0 + 1 by decide, List.take_succ_cons,
      List.take_zero]

end DeviceTrace
end Lockstep
