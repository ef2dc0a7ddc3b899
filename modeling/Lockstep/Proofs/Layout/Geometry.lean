import Lockstep.Layout
import Lockstep.Proofs.Word

/-!
# The geometry of a layout

Regions are packed one after another at multiples of their alignments, which are powers of
two.  They only move up, so a layout drawn up in numbers without bound fits 64-bit words if
its last byte does.  The host span starts at or before the replica data, at a multiple of
both of its alignments, so that what is aligned in the layout is aligned within the span.
-/

namespace Lockstep

theorem EngineConfig.isPowerOfTwo_of_validate {c : EngineConfig} (h : c.validate = .ok ()) :
    Word.isPowerOfTwo c.worldDataAlign.toNat = true := by
  unfold EngineConfig.validate at h
  split at h
  · contradiction
  split at h
  · contradiction
  split at h
  · assumption
  · contradiction

/-- The end of a region, where it is a word. -/
def Region.limit (r : Region) : Nat := r.offset + r.bytes

namespace LaunchLayout

namespace Placement

def region (p : Placement) (bytes align : Nat) : Region :=
  ⟨Word.alignUp p.cursor align, bytes, align⟩

def next (p : Placement) (bytes align : Nat) : Placement :=
  ⟨Word.alignUp p.cursor align + bytes, max p.maxAlign align⟩

theorem cursor_le_next (p : Placement) (bytes : Nat) {align : Nat} (h : 0 < align) :
    p.cursor ≤ (p.next bytes align).cursor :=
  (Word.le_alignUp _ h).trans (Nat.le_add_right _ _)

theorem place_eq_ok_iff {p p' : Placement} {bytes align : Nat} {r : Region} :
    p.place bytes align = .ok (r, p') ↔
      (p.next bytes align).cursor < Word.size64 ∧ r = p.region bytes align ∧
        p' = p.next bytes align := by
  constructor
  · intro h
    obtain ⟨offset, hoffset, h⟩ := exists_of_bind h
    obtain ⟨cursor, hcursor, h⟩ := exists_of_bind h
    obtain ⟨rfl, -⟩ := Word.mul_eq_ok hoffset
    obtain ⟨rfl, hlt⟩ := Word.add_eq_ok hcursor
    obtain ⟨rfl, rfl⟩ := Prod.mk.inj (Except.ok.inj h)
    exact ⟨hlt, rfl, rfl⟩
  · rintro ⟨hlt, rfl, rfl⟩
    have hoffset : Word.mul Word.size64 (Word.ceilDiv p.cursor align) align =
        .ok (Word.alignUp p.cursor align) := if_pos ((Nat.le_add_right _ _).trans_lt hlt)
    have hcursor : Word.add Word.size64 (Word.alignUp p.cursor align) bytes =
        .ok (Word.alignUp p.cursor align + bytes) := if_pos hlt
    rw [place, hoffset]
    change (Word.add Word.size64 (Word.alignUp p.cursor align) bytes >>= _) = _
    rw [hcursor]
    rfl

end Placement

section Stages

variable (c : EngineConfig)

def afterControl : Placement :=
  ((⟨0, 1⟩ : Placement).next schedulerBytes wordAlign).next storageBytes wordAlign

def worldBytes : Nat := c.state.numWorlds.toNat * c.worldDataStride

def afterWorldData : Placement := afterControl.next (worldBytes c) c.worldDataAlign.toNat

def afterTmp : Placement := (afterWorldData c).next c.tmpAllocBytes.toNat tmpAlign

def printBytes : Nat := c.printCapacity.toNat * printSlotBytes

def afterPrint : Placement := (afterTmp c).next (printBytes c) wordAlign

def traceBytes : Nat := (if c.trace.enabled then c.trace.capacity.toNat else 0) * traceRecordBytes

def afterTrace : Placement := (afterPrint c).next (traceBytes c) wordAlign

/-- The layout of a configuration in numbers without bound. -/
def ideal : LaunchLayout where
  scheduler := (⟨0, 1⟩ : Placement).region schedulerBytes wordAlign
  storage := ((⟨0, 1⟩ : Placement).next schedulerBytes wordAlign).region storageBytes wordAlign
  worldData := afterControl.region (worldBytes c) c.worldDataAlign.toNat
  worldStride := c.worldDataStride
  tmpAlloc := (afterWorldData c).region c.tmpAllocBytes.toNat tmpAlign
  print := (afterTmp c).region (printBytes c) wordAlign
  trace := (afterPrint c).region (traceBytes c) wordAlign
  totalBytes := (afterTrace c).cursor
  maxAlign := (afterTrace c).maxAlign

end Stages

theorem tmp_le_total (c : EngineConfig) : (afterTmp c).cursor ≤ (ideal c).totalBytes :=
  ((afterTmp c).cursor_le_next (printBytes c) (by decide)).trans
    ((afterPrint c).cursor_le_next (traceBytes c) (by decide))

variable {c : EngineConfig} {l : LaunchLayout}

theorem compute_eq_ok_iff :
    compute c = .ok l ↔ (ideal c).totalBytes < Word.size64 ∧ l = ideal c := by
  constructor
  · intro h
    obtain ⟨⟨scheduler, p₁⟩, hscheduler, h⟩ := exists_of_bind h
    obtain ⟨⟨storage, p₂⟩, hstorage, h⟩ := exists_of_bind h
    obtain ⟨worldBytes, hbytes, h⟩ := exists_of_bind h
    obtain ⟨⟨worldData, p₃⟩, hworld, h⟩ := exists_of_bind h
    obtain ⟨⟨tmpAlloc, p₄⟩, htmp, h⟩ := exists_of_bind h
    obtain ⟨⟨print, p₅⟩, hprint, h⟩ := exists_of_bind h
    obtain ⟨⟨trace, p₆⟩, htrace, h⟩ := exists_of_bind h
    obtain rfl := Except.ok.inj h
    obtain ⟨rfl, -⟩ := Word.mul_eq_ok hbytes
    obtain ⟨-, rfl, rfl⟩ := Placement.place_eq_ok_iff.1 hscheduler
    obtain ⟨-, rfl, rfl⟩ := Placement.place_eq_ok_iff.1 hstorage
    obtain ⟨-, rfl, rfl⟩ := Placement.place_eq_ok_iff.1 hworld
    obtain ⟨-, rfl, rfl⟩ := Placement.place_eq_ok_iff.1 htmp
    obtain ⟨-, rfl, rfl⟩ := Placement.place_eq_ok_iff.1 hprint
    obtain ⟨hlt, rfl, rfl⟩ := Placement.place_eq_ok_iff.1 htrace
    exact ⟨hlt, rfl⟩
  · rintro ⟨htrace, rfl⟩
    -- No cursor goes back, so all of them are below the last.
    have hprint : (afterPrint c).cursor < Word.size64 :=
      ((afterPrint c).cursor_le_next (traceBytes c) (by decide)).trans_lt htrace
    have htmp : (afterTmp c).cursor < Word.size64 := (tmp_le_total c).trans_lt htrace
    have hworld : (afterWorldData c).cursor < Word.size64 :=
      ((afterWorldData c).cursor_le_next c.tmpAllocBytes.toNat (by decide)).trans_lt htmp
    have hbytes : worldBytes c < Word.size64 := (Nat.le_add_left _ _).trans_lt hworld
    refine (bind_of_eq_ok (Placement.place_eq_ok_iff.2 ⟨by decide, rfl, rfl⟩)).trans ?_
    refine (bind_of_eq_ok (Placement.place_eq_ok_iff.2 ⟨by decide, rfl, rfl⟩)).trans ?_
    refine (bind_of_eq_ok (if_pos hbytes)).trans ?_
    refine (bind_of_eq_ok (Placement.place_eq_ok_iff.2 ⟨hworld, rfl, rfl⟩)).trans ?_
    refine (bind_of_eq_ok (Placement.place_eq_ok_iff.2 ⟨htmp, rfl, rfl⟩)).trans ?_
    refine (bind_of_eq_ok (Placement.place_eq_ok_iff.2 ⟨hprint, rfl, rfl⟩)).trans ?_
    exact bind_of_eq_ok (Placement.place_eq_ok_iff.2 ⟨htrace, rfl, rfl⟩)

/-- The regions that the host backs, as a layout places them behind the control blocks. -/
structure Places (c : EngineConfig) (l : LaunchLayout) : Prop where
  worldStride : l.worldStride = c.worldDataStride
  worldData : l.worldData = ⟨Word.alignUp l.storage.limit c.worldDataAlign.toNat,
    c.state.numWorlds.toNat * c.worldDataStride, c.worldDataAlign.toNat⟩
  tmpAlloc : l.tmpAlloc = ⟨Word.alignUp l.worldData.limit tmpAlign, c.tmpAllocBytes.toNat, tmpAlign⟩

theorem places_of_compute (h : compute c = .ok l) : Places c l := by
  obtain ⟨-, rfl⟩ := compute_eq_ok_iff.1 h
  exact ⟨rfl, rfl, rfl⟩

namespace Places

variable (h : Places c l)
include h

theorem worldData_align : l.worldData.align = c.worldDataAlign.toNat := by rw [h.worldData]

theorem tmpAlloc_align : l.tmpAlloc.align = tmpAlign := by rw [h.tmpAlloc]

theorem replica_le {k : Nat} (hk : k < c.state.numWorlds.toNat) :
    k * l.worldStride + l.worldStride ≤ l.worldData.bytes := by
  have hbytes : l.worldData.bytes = c.state.numWorlds.toNat * l.worldStride := by
    rw [h.worldData, h.worldStride]
  rw [hbytes, ← Nat.succ_mul]
  exact Nat.mul_le_mul_right _ hk

end Places

theorem hostSpan_ok {l : LaunchLayout} {span : Region} (h : l.hostSpan = .ok span) :
    span.align = max l.worldData.align l.tmpAlloc.align ∧
      span.offset = l.worldData.offset / span.align * span.align ∧
      span.bytes = l.tmpAlloc.limit - span.offset := by
  obtain ⟨stop, hstop, h⟩ := exists_of_bind h
  obtain ⟨rfl, -⟩ := Word.add_eq_ok hstop
  obtain rfl := Except.ok.inj h
  exact ⟨rfl, rfl, rfl⟩

/-- Where replica data and temporary blocks lie within a span. -/
structure Spans (l : LaunchLayout) (span : Region) : Prop where
  offset_le : span.offset ≤ l.worldData.offset
  dvd_offset : l.worldData.align ∣ l.worldData.offset - span.offset
  dvd_stride : l.worldData.align ∣ l.worldStride
  worldData_le : l.worldData.limit ≤ l.tmpAlloc.offset
  limit : span.limit = l.tmpAlloc.limit

theorem Places.spans {c : EngineConfig} {l : LaunchLayout} {span : Region} (h : Places c l)
    (hvalid : Word.isPowerOfTwo c.worldDataAlign.toNat = true) (hspan : l.hostSpan = .ok span) :
    Spans l span := by
  obtain ⟨halign, hoffset, hbytes⟩ := hostSpan_ok hspan
  have htmpOffset : l.worldData.limit ≤ l.tmpAlloc.offset := by
    rw [h.tmpAlloc]
    exact Word.le_alignUp _ (by decide)
  have hle : span.offset ≤ l.worldData.offset := hoffset ▸ Nat.div_mul_le_self ..
  have hdvd : l.worldData.align ∣ span.align := by
    rw [halign, h.worldData_align, h.tmpAlloc_align]
    exact Word.dvd_max_of_isPowerOfTwo hvalid (by decide)
  refine ⟨hle, ?_, ?_, htmpOffset, ?_⟩
  · apply Nat.dvd_sub
    · rw [h.worldData_align, h.worldData]
      exact Word.dvd_alignUp ..
    · rw [hoffset]
      exact hdvd.mul_left _
  · rw [h.worldData_align, h.worldStride]
    exact Word.dvd_alignUp ..
  · have hlimit : l.worldData.offset ≤ l.worldData.limit := Nat.le_add_right ..
    have htmpLimit : l.tmpAlloc.offset ≤ l.tmpAlloc.limit := Nat.le_add_right ..
    rw [Region.limit, hbytes]
    omega

end LaunchLayout
end Lockstep
