import Lockstep.Proofs.Layout.Packing

/-!
# Layouts that leave the words

Offsets and sizes are 64-bit words, and a valid configuration can ask for more.  No replica
data is too large, though it comes near: 2 ^ 31 bytes are always left.  So the first number that
can leave the words is the end of the temporary region, and after it the round-up for the print
buffer, or a later end.
-/

namespace Lockstep

namespace LaunchLayout

variable {c : EngineConfig} {l : LaunchLayout} {fault : Fault}

theorem Placement.place_error {p : Placement} {bytes align : Nat}
    (h : p.place bytes align = .error fault) :
    fault = .mulOverflow ∧ Word.size64 ≤ Word.alignUp p.cursor align ∨
      fault = .addOverflow ∧ Word.alignUp p.cursor align < Word.size64 ∧
        Word.size64 ≤ (p.next bytes align).cursor := by
  rcases fault_of_bind h with hoffset | ⟨offset, hoffset, h⟩
  · left
    exact Word.mul_eq_error hoffset
  obtain ⟨rfl, hlt⟩ := Word.mul_eq_ok hoffset
  rcases fault_of_bind h with hcursor | ⟨cursor, -, h⟩
  · right
    obtain ⟨hfault, hge⟩ := Word.add_eq_error hcursor
    exact ⟨hfault, hlt, hge⟩
  · contradiction

/-- The print buffer has a size that leaves the trace buffer right behind it. -/
theorem trace_offset_eq (c : EngineConfig) : (ideal c).trace.offset = (ideal c).print.limit := by
  apply Word.alignUp_of_dvd (by decide)
  apply Nat.dvd_add (Word.dvd_alignUp _ _)
  exact (show wordAlign ∣ printSlotBytes by decide).mul_left _

section Valid

variable (hvalid : c.validate = .ok ())
include hvalid

theorem worldDataAlign_pos : 0 < c.worldDataAlign.toNat :=
  Word.pos_of_isPowerOfTwo (EngineConfig.isPowerOfTwo_of_validate hvalid)

theorem worldDataAlign_dvd : c.worldDataAlign.toNat ∣ 2 ^ 31 := by
  obtain ⟨k, hk⟩ := Word.exists_pow_of_isPowerOfTwo (EngineConfig.isPowerOfTwo_of_validate hvalid)
  have hword : 2 ^ k < 2 ^ 32 := hk ▸ c.worldDataAlign.toNat_lt
  rw [hk]
  apply Nat.pow_dvd_pow
  exact Nat.le_of_lt_succ ((Nat.pow_lt_pow_iff_right (by decide)).1 hword)

theorem worldDataStride_le : c.worldDataStride ≤ 2 ^ 32 := by
  apply Word.alignUp_le (worldDataAlign_pos hvalid)
  · exact (worldDataAlign_dvd hvalid).trans (by decide)
  · exact c.worldDataBytes.toNat_lt.le

theorem worldBytes_le : worldBytes c ≤ (2 ^ 32 - 1) * 2 ^ 32 := by
  apply Nat.mul_le_mul _ (worldDataStride_le hvalid)
  exact Nat.le_pred_of_lt c.state.numWorlds.toNat_lt

theorem worldData_limit_le : (ideal c).worldData.limit ≤ 2 ^ 64 - 2 ^ 31 := by
  have hbytes := worldBytes_le hvalid
  have hoffset : (ideal c).worldData.offset ≤ 2 ^ 31 := by
    apply Word.alignUp_le (worldDataAlign_pos hvalid) (worldDataAlign_dvd hvalid)
    decide
  have hlimit : (ideal c).worldData.limit = (ideal c).worldData.offset + worldBytes c := rfl
  omega

theorem tmp_offset_le : (ideal c).tmpAlloc.offset ≤ 2 ^ 64 - 2 ^ 31 :=
  Word.alignUp_le (by decide) (by decide) (worldData_limit_le hvalid)

theorem place_worldData : afterControl.place (worldBytes c) c.worldDataAlign.toNat =
    .ok ((ideal c).worldData, afterWorldData c) := by
  apply Placement.place_eq_ok_iff.2
  refine ⟨?_, rfl, rfl⟩
  exact (worldData_limit_le hvalid).trans_lt (by decide)

theorem compute_error (h : compute c = .error fault) :
    fault = .addOverflow ∧ Word.size64 ≤ (ideal c).tmpAlloc.limit ∨
      fault = .mulOverflow ∧ (ideal c).tmpAlloc.limit < Word.size64 ∧
        Word.size64 ≤ (ideal c).print.offset ∨
      fault = .addOverflow ∧ (ideal c).print.offset < Word.size64 := by
  have hbytes : Word.mul Word.size64 c.state.numWorlds.toNat c.worldDataStride =
      .ok (worldBytes c) := if_pos ((worldBytes_le hvalid).trans_lt (by decide))
  have hfront : compute c = _ :=
    (bind_of_eq_ok (Placement.place_eq_ok_iff.2 ⟨by decide, rfl, rfl⟩)).trans <|
    (bind_of_eq_ok (Placement.place_eq_ok_iff.2 ⟨by decide, rfl, rfl⟩)).trans <|
    (bind_of_eq_ok hbytes).trans (bind_of_eq_ok (place_worldData hvalid))
  rw [hfront] at h
  rcases fault_of_bind h with htmp | ⟨⟨tmpAlloc, p₄⟩, htmp, h⟩
  · left
    rcases Placement.place_error htmp with ⟨-, hoffset⟩ | ⟨hfault, -, hlimit⟩
    · exact absurd ((tmp_offset_le hvalid).trans_lt (by decide)) (Nat.not_lt.2 hoffset)
    · exact ⟨hfault, hlimit⟩
  obtain ⟨htmpLimit, rfl, rfl⟩ := Placement.place_eq_ok_iff.1 htmp
  right
  rcases fault_of_bind h with hprint | ⟨⟨print, p₅⟩, hprint, h⟩
  · rcases Placement.place_error hprint with ⟨hfault, hoffset⟩ | ⟨hfault, hoffset, -⟩
    · exact .inl ⟨hfault, htmpLimit, hoffset⟩
    · exact .inr ⟨hfault, hoffset⟩
  obtain ⟨hprintLimit, rfl, rfl⟩ := Placement.place_eq_ok_iff.1 hprint
  have hprintOffset : (ideal c).print.offset < Word.size64 :=
    (Nat.le_add_right _ _).trans_lt hprintLimit
  rcases fault_of_bind h with htrace | ⟨_, -, h⟩
  · rcases Placement.place_error htrace with ⟨-, hoffset⟩ | ⟨hfault, -, -⟩
    · have hfits : (ideal c).trace.offset < Word.size64 := by
        rw [trace_offset_eq c]
        exact hprintLimit
      exact absurd hfits (Nat.not_lt.2 hoffset)
    · exact .inr ⟨hfault, hprintOffset⟩
  · contradiction

end Valid

theorem stop_eq_ok (hpos : 0 < c.worldDataAlign.toNat) (htotal : (ideal c).totalBytes < Word.size64) :
    ∀ r ∈ (ideal c).regions, r.stop = .ok r.limit := by
  intro r hr
  have hplaced := placed_ideal hpos
  have hlimit := hplaced.packed.limit_le_lastStop r hr
  rw [← hplaced.cursor_eq] at hlimit
  exact if_pos (hlimit.trans_lt htotal)

/-- A valid configuration gets the layout that it has in numbers without bound, if that layout
fits 64-bit words.  If not, its computation faults: over a product where rounding up for the
print buffer leaves the words, and over a sum otherwise.  Nothing in front of the end of the
temporary region can leave them: the stride, the size of all replicas, their placement and the
start of the temporary region are words for every valid configuration, as are the sizes of the
buffers.  In a layout that is computed all regions end in a word, and so does the host span,
which starts in front of its end. -/
theorem exact_or_overflow (hvalid : c.validate = .ok ()) :
    (∀ l, compute c = .ok l ↔ (ideal c).totalBytes < Word.size64 ∧ l = ideal c) ∧
    (Word.size64 ≤ (ideal c).totalBytes → compute c = .error
      (if (ideal c).tmpAlloc.limit < Word.size64 ∧ Word.size64 ≤ (ideal c).print.offset then
        .mulOverflow else .addOverflow)) ∧
    (Word.mul Word.size64 (Word.ceilDiv c.worldDataBytes.toNat c.worldDataAlign.toNat)
        c.worldDataAlign.toNat = .ok c.worldDataStride ∧
      Word.mul Word.size64 c.state.numWorlds.toNat c.worldDataStride = .ok (worldBytes c) ∧
      afterControl.place (worldBytes c) c.worldDataAlign.toNat =
        .ok ((ideal c).worldData, afterWorldData c) ∧
      Word.mul Word.size64 (Word.ceilDiv (ideal c).worldData.limit tmpAlign) tmpAlign =
        .ok (ideal c).tmpAlloc.offset ∧
      Word.mul Word.size64 c.printCapacity.toNat printSlotBytes = .ok (printBytes c) ∧
      Word.mul Word.size64 c.trace.capacity.toNat traceRecordBytes =
        .ok (c.trace.capacity.toNat * traceRecordBytes)) ∧
    ∀ l, compute c = .ok l → (∀ r ∈ l.regions, r.stop = .ok r.limit) ∧
      ∃ span, l.hostSpan = .ok span ∧
        Word.mul Word.size64 (l.worldData.offset / span.align) span.align = .ok span.offset ∧
        span.offset ≤ l.tmpAlloc.limit ∧ span.stop = .ok l.tmpAlloc.limit := by
  refine ⟨fun l => compute_eq_ok_iff, fun hover => ?_, ⟨?_, ?_, place_worldData hvalid, ?_, ?_, ?_⟩,
    fun l h => ?_⟩
  · cases h : compute c with
    | ok l => exact absurd (compute_eq_ok_iff.1 h).1 (Nat.not_lt.2 hover)
    | error fault =>
        rcases compute_error hvalid h with ⟨rfl, htmp⟩ | ⟨rfl, hprint⟩ | ⟨rfl, hprint⟩
        · rw [if_neg fun hrounded => absurd hrounded.1 (Nat.not_lt.2 htmp)]
        · rw [if_pos hprint]
        · rw [if_neg fun hrounded => absurd hprint (Nat.not_lt.2 hrounded.2)]
  · exact if_pos ((worldDataStride_le hvalid).trans_lt (by decide))
  · exact if_pos ((worldBytes_le hvalid).trans_lt (by decide))
  · exact if_pos ((tmp_offset_le hvalid).trans_lt (by decide))
  · apply if_pos
    have hcapacity := Nat.mul_le_mul_right printSlotBytes c.printCapacity.toNat_lt.le
    exact hcapacity.trans_lt (by decide)
  · apply if_pos
    have hcapacity := Nat.mul_le_mul_right traceRecordBytes c.trace.capacity.toNat_lt.le
    exact hcapacity.trans_lt (by decide)
  · have hpower := EngineConfig.isPowerOfTwo_of_validate hvalid
    have hplaces := places_of_compute h
    obtain ⟨htotal, rfl⟩ := compute_eq_ok_iff.1 h
    have hword : (ideal c).tmpAlloc.limit < Word.size64 := (tmp_le_total c).trans_lt htotal
    have hspan := hostSpan_eq hword
    have hspans := hplaces.spans hpower hspan
    have hoffset := hspans.within.2.first.trans (Nat.le_add_right _ (ideal c).tmpAlloc.bytes)
    refine ⟨stop_eq_ok (worldDataAlign_pos hvalid) htotal, _, hspan, ?_, hoffset, ?_⟩
    · exact if_pos (hoffset.trans_lt hword)
    · have hlimit := hspans.limit
      rw [← hlimit] at hword ⊢
      exact if_pos hword

namespace Sample

/-- The largest replica data that a valid configuration can ask for. -/
def largest (tmpAllocBytes : UInt64) : EngineConfig where
  state := { StateConfig.default with numWorlds := 0xFFFFFFFF }
  launch := .default
  worldDataBytes := 0xFFFFFFFF
  worldDataAlign := 0x80000000
  tmpAllocBytes
  printCapacity := 0
  trace := ⟨true, 0⟩

end Sample

open Sample in
/-- The temporary region may leave eight bytes, or end on the last one, so that the next
region has no place, or end behind it. -/
theorem exact_or_overflow_sample :
    (largest 0x7FFFFFF8).validate = .ok () ∧
      compute (largest 0x7FFFFFF8) = .ok (ideal (largest 0x7FFFFFF8)) ∧
      (ideal (largest 0x7FFFFFF8)).totalBytes = 2 ^ 64 - 8 ∧
    (largest 0x7FFFFFFF).validate = .ok () ∧
      compute (largest 0x7FFFFFFF) = .error .mulOverflow ∧
    (largest 0x80000000).validate = .ok () ∧
      compute (largest 0x80000000) = .error .addOverflow := by
  have hvalidFits : (largest 0x7FFFFFF8).validate = .ok () := by decide
  have hvalidRounded : (largest 0x7FFFFFFF).validate = .ok () := by decide
  have hvalidOver : (largest 0x80000000).validate = .ok () := by decide
  obtain ⟨hfits, -⟩ := exact_or_overflow hvalidFits
  obtain ⟨-, hrounded, -⟩ := exact_or_overflow hvalidRounded
  obtain ⟨-, hover, -⟩ := exact_or_overflow hvalidOver
  exact ⟨hvalidFits, (hfits _).2 ⟨by decide, rfl⟩, by decide, hvalidRounded,
    hrounded (by decide), hvalidOver, hover (by decide)⟩

end LaunchLayout
end Lockstep
