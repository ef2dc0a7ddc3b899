import Lockstep.Proofs.Layout.Demand

/-!
# Packing

Regions are packed if each starts at the first multiple of its alignment behind the region
before it.  Packed regions do not overlap, and less room than an alignment is lost in front of
each.  The regions of a layout are packed; the host span is cut out of them so that what it
holds is as aligned within the span as within the layout.
-/

namespace Lockstep

namespace Region

variable {regions : List Region} {r : Region}

/-- Where the last of some regions stops: at zero if there is none. -/
def lastStop (regions : List Region) : Nat := (regions.getLast?.map limit).getD 0

theorem lastStop_concat (regions : List Region) (r : Region) :
    lastStop (regions ++ [r]) = r.limit := by
  rw [lastStop, List.getLast?_concat, Option.map_some, Option.getD_some]

structure Within (r whole : Region) : Prop where
  first : whole.offset ≤ r.offset
  last : r.limit ≤ whole.limit

/-- Regions that were placed one after another, each at the next multiple of its alignment. -/
inductive Packed : List Region → Prop
  | nil : Packed []
  | place {regions : List Region} (h : Packed regions) (bytes : Nat) {align : Nat}
      (hpos : 0 < align) :
      Packed (regions ++ [⟨Word.alignUp (lastStop regions) align, bytes, align⟩])

namespace Packed

theorem dvd_offset (h : Packed regions) : ∀ r ∈ regions, r.align ∣ r.offset := by
  induction h with
  | nil =>
      intro r hr
      contradiction
  | place h bytes hpos ih =>
      intro r hr
      rcases List.mem_append.1 hr with hold | hnew
      · exact ih r hold
      · obtain rfl := List.mem_singleton.1 hnew
        apply Word.dvd_alignUp

theorem limit_le_lastStop (h : Packed regions) : ∀ r ∈ regions, r.limit ≤ lastStop regions := by
  induction h with
  | nil =>
      intro r hr
      contradiction
  | place h bytes hpos ih =>
      intro r hr
      rw [lastStop_concat]
      rcases List.mem_append.1 hr with hold | hnew
      · apply (ih r hold).trans
        apply (Word.le_alignUp _ hpos).trans
        apply Nat.le_add_right
      · obtain rfl := List.mem_singleton.1 hnew
        apply Nat.le_refl

theorem pairwise (h : Packed regions) : regions.Pairwise fun r r' => r.limit ≤ r'.offset := by
  induction h with
  | nil => exact .nil
  | place h bytes hpos ih =>
      apply List.pairwise_append.2
      refine ⟨ih, List.pairwise_singleton .., ?_⟩
      intro r hr new hnew
      obtain rfl := List.mem_singleton.1 hnew
      exact (h.limit_le_lastStop r hr).trans (Word.le_alignUp _ hpos)

/-- What is lost in front of a region is less than its alignment. -/
theorem offset_lt (h : Packed regions) (before : List Region) (r : Region) (later : List Region)
    (hsplit : regions = before ++ r :: later) : r.offset < lastStop before + r.align := by
  induction h generalizing later with
  | nil => simp at hsplit
  | @place regions h bytes align hpos ih =>
      rcases List.eq_nil_or_concat later with rfl | ⟨later, last, rfl⟩
      · obtain ⟨rfl, hr⟩ := List.append_inj' hsplit rfl
        obtain rfl := List.singleton_inj.1 hr
        exact Word.alignUp_lt _ hpos
      · rw [List.concat_eq_append, ← List.cons_append, ← List.append_assoc] at hsplit
        exact ih later (List.append_inj' hsplit rfl).1

end Packed
end Region

namespace LaunchLayout

namespace Placement

variable {regions : List Region} {p : Placement}

/-- Regions that were placed from the start, with what their placement has come to. -/
inductive Placed : List Region → Placement → Prop
  | start : Placed [] ⟨0, 1⟩
  | next {regions : List Region} {p : Placement} (h : Placed regions p) (bytes : Nat)
      {align : Nat} (hpos : 0 < align) :
      Placed (regions ++ [p.region bytes align]) (p.next bytes align)

namespace Placed

theorem cursor_eq (h : Placed regions p) : p.cursor = Region.lastStop regions := by
  induction h with
  | start => rfl
  | next h bytes hpos ih =>
      rw [Region.lastStop_concat]
      rfl

theorem packed (h : Placed regions p) : Region.Packed regions := by
  induction h with
  | start => exact .nil
  | next h bytes hpos ih =>
      rw [region, h.cursor_eq]
      exact ih.place bytes hpos

theorem align_le (h : Placed regions p) : ∀ r ∈ regions, r.align ≤ p.maxAlign := by
  induction h with
  | start =>
      intro r hr
      contradiction
  | next h bytes hpos ih =>
      intro r hr
      rcases List.mem_append.1 hr with hold | hnew
      · exact (ih r hold).trans (Nat.le_max_left ..)
      · obtain rfl := List.mem_singleton.1 hnew
        exact Nat.le_max_right ..

/-- The largest alignment is that of a region, if there is any. -/
theorem exists_align (h : Placed regions p) :
    p.maxAlign = 1 ∨ ∃ r ∈ regions, r.align = p.maxAlign := by
  induction h with
  | start => exact .inl rfl
  | @next regions p h bytes align hpos ih =>
      right
      rcases Nat.le_total p.maxAlign align with hsmaller | hlarger
      · refine ⟨_, List.mem_append_right _ (List.mem_singleton_self _), ?_⟩
        exact (Nat.max_eq_right hsmaller).symm
      · have hmax : (p.next bytes align).maxAlign = p.maxAlign := Nat.max_eq_left hlarger
        rw [hmax]
        rcases ih with hone | ⟨r, hr, halign⟩
        · refine ⟨_, List.mem_append_right _ (List.mem_singleton_self _), ?_⟩
          change align = _
          omega
        · exact ⟨r, List.mem_append_left _ hr, halign⟩

end Placed
end Placement

variable {c : EngineConfig} {l : LaunchLayout}

/-- What a configuration asks for, in the order of placement: sizes with alignments. -/
def demands (c : EngineConfig) : List (Nat × Nat) :=
  [(schedulerBytes, wordAlign), (storageBytes, wordAlign),
    (worldBytes c, c.worldDataAlign.toNat), (c.tmpAllocBytes.toNat, tmpAlign),
    (printBytes c, wordAlign), (traceBytes c, wordAlign)]

theorem placed_ideal (hpos : 0 < c.worldDataAlign.toNat) :
    Placement.Placed (ideal c).regions (afterTrace c) := by
  have hword : 0 < wordAlign := by decide
  have htmp : 0 < tmpAlign := by decide
  have hcontrol := (Placement.Placed.start.next schedulerBytes hword).next storageBytes hword
  have hhost := (hcontrol.next (worldBytes c) hpos).next c.tmpAllocBytes.toNat htmp
  exact (hhost.next (printBytes c) hword).next (traceBytes c) hword

/-! ## The host span -/

/-- Where a replica lies. -/
def replica (l : LaunchLayout) (k : Nat) : Region :=
  ⟨l.worldData.offset + k * l.worldStride, l.worldStride, l.worldData.align⟩

theorem Places.replica_within (h : Places c l) {k : Nat} (hk : k < c.state.numWorlds.toNat) :
    (l.replica k).Within l.worldData := by
  refine ⟨Nat.le_add_right .., ?_⟩
  rw [Region.limit, Region.limit, replica, Nat.add_assoc]
  exact Nat.add_le_add_left (h.replica_le hk) _

/-- A span starts at a multiple of its alignment, and less than that in front of the replica
data. -/
theorem hostSpan_start {span : Region} (h : l.hostSpan = .ok span) (hpos : 0 < span.align) :
    span.align ∣ span.offset ∧ l.worldData.offset < span.offset + span.align := by
  obtain ⟨-, hoffset, -⟩ := hostSpan_ok h
  have hmod := Nat.mod_lt l.worldData.offset hpos
  have hdiv := Nat.div_add_mod' l.worldData.offset span.align
  rw [hoffset]
  refine ⟨Nat.dvd_mul_left .., ?_⟩
  omega

theorem Places.tmp_dvd {span : Region} (h : Places c l)
    (hvalid : Word.isPowerOfTwo c.worldDataAlign.toNat = true) (hspan : l.hostSpan = .ok span) :
    l.tmpAlloc.align ∣ l.tmpAlloc.offset - span.offset := by
  obtain ⟨halign, hoffset, -⟩ := hostSpan_ok hspan
  -- The span is aligned for temporary blocks, if not for more.
  have hdvd : l.tmpAlloc.align ∣ span.align := by
    rw [halign, h.worldData_align, h.tmpAlloc_align, Nat.max_comm]
    exact Word.dvd_max_of_isPowerOfTwo (by decide) hvalid
  apply Nat.dvd_sub
  · rw [h.tmpAlloc]
    exact Word.dvd_alignUp ..
  · rw [hoffset]
    exact hdvd.mul_left _

theorem Spans.within {span : Region} (h : Spans l span) :
    l.worldData.Within span ∧ l.tmpAlloc.Within span := by
  have hworld : l.worldData.offset ≤ l.worldData.limit := Nat.le_add_right ..
  have htmp : l.tmpAlloc.offset ≤ l.tmpAlloc.limit := Nat.le_add_right ..
  have hfirst := h.offset_le
  have hbetween := h.worldData_le
  have hlast := h.limit
  refine ⟨⟨hfirst, ?_⟩, ⟨?_, hlast.ge⟩⟩
  · omega
  · omega

theorem Spans.dvd_replica {span : Region} (h : Spans l span) (k : Nat) :
    l.worldData.align ∣ (l.replica k).offset - span.offset := by
  have hdvd := Nat.dvd_add h.dvd_offset (h.dvd_stride.mul_left k)
  rwa [← Nat.sub_add_comm h.offset_le] at hdvd

theorem tmp_limit_le (c : EngineConfig) :
    (ideal c).tmpAlloc.limit ≤ (ideal c).print.offset ∧
      (ideal c).tmpAlloc.limit ≤ (ideal c).trace.offset := by
  have hprint : (ideal c).tmpAlloc.limit ≤ (ideal c).print.offset :=
    Word.le_alignUp _ (by decide)
  have htrace : (ideal c).print.limit ≤ (ideal c).trace.offset := Word.le_alignUp _ (by decide)
  refine ⟨hprint, hprint.trans (le_trans ?_ htrace)⟩
  apply Nat.le_add_right

/-- A computed layout has the regions that were asked for.  They are packed: each is aligned,
they do not overlap, less than an alignment is lost in front of each, and the last one ends the
layout.  The host span holds the replica data and the temporary region and ends with them, in
front of all that follows; what is aligned in the layout is aligned within the span. -/
theorem regions_packed (hvalid : c.validate = .ok ()) (h : compute c = .ok l) :
    l.regions.map (fun r => (r.bytes, r.align)) = demands c ∧
    (∀ r ∈ l.regions, r.align ∣ r.offset) ∧
    (l.regions.Pairwise fun r r' => r.limit ≤ r'.offset) ∧
    (∀ before r later, l.regions = before ++ r :: later →
      r.offset < Region.lastStop before + r.align) ∧
    l.totalBytes = l.trace.limit ∧
    ((∀ r ∈ l.regions, r.align ≤ l.maxAlign) ∧ ∃ r ∈ l.regions, r.align = l.maxAlign) ∧
    ∃ span, l.hostSpan = .ok span ∧
      (span.align ∣ span.offset ∧ span.offset ≤ l.worldData.offset ∧
        l.worldData.offset - span.offset ≤ span.align - 1) ∧
      (span.limit = l.tmpAlloc.limit ∧ span.limit ≤ l.print.offset ∧
        span.limit ≤ l.trace.offset) ∧
      (l.worldData.Within span ∧ l.tmpAlloc.Within span) ∧
      l.worldData.align ∣ l.worldData.offset - span.offset ∧
      (∀ k < c.state.numWorlds.toNat, (l.replica k).Within l.worldData ∧
        l.worldData.align ∣ (l.replica k).offset - span.offset) ∧
      l.tmpAlloc.align ∣ l.tmpAlloc.offset - span.offset := by
  have hpower := EngineConfig.isPowerOfTwo_of_validate hvalid
  have hplaces := places_of_compute h
  obtain ⟨htotal, rfl⟩ := compute_eq_ok_iff.1 h
  have hplaced := placed_ideal (Word.pos_of_isPowerOfTwo hpower)
  have hpacked := hplaced.packed
  have hlargest : (ideal c).maxAlign ≠ 1 := by
    have hword : wordAlign ≤ (ideal c).maxAlign := Nat.le_max_right _ _
    exact (Nat.lt_of_lt_of_le (by decide) hword).ne'
  have hword : (ideal c).tmpAlloc.limit < Word.size64 := (tmp_le_total c).trans_lt htotal
  have hspan := hostSpan_eq hword
  have hspans := hplaces.spans hpower hspan
  obtain ⟨hfirst, hnear⟩ := hostSpan_start hspan (hostAlign_pos c)
  obtain ⟨hprint, htrace⟩ := tmp_limit_le c
  refine ⟨rfl, hpacked.dvd_offset, hpacked.pairwise, hpacked.offset_lt, rfl,
    ⟨hplaced.align_le, hplaced.exists_align.resolve_left hlargest⟩, _, hspan,
    ⟨hfirst, hspans.offset_le, ?_⟩, ⟨hspans.limit, ?_, ?_⟩, hspans.within, hspans.dvd_offset,
    fun k hk => ⟨hplaces.replica_within hk, hspans.dvd_replica k⟩, hplaces.tmp_dvd hpower hspan⟩
  · omega
  · exact hspans.limit.trans_le hprint
  · exact hspans.limit.trans_le htrace

namespace Sample

def config : EngineConfig where
  state := { StateConfig.default with numWorlds := 3 }
  launch := .default
  worldDataBytes := 20
  worldDataAlign := 16
  tmpAllocBytes := 1001
  printCapacity := 2
  trace := ⟨true, 3⟩

def placed : LaunchLayout where
  scheduler := ⟨0, 32, 8⟩
  storage := ⟨32, 320, 8⟩
  worldData := ⟨352, 96, 16⟩
  worldStride := 32
  tmpAlloc := ⟨448, 1001, 64⟩
  print := ⟨1456, 512, 8⟩
  trace := ⟨1968, 96, 8⟩
  totalBytes := 2064
  maxAlign := 64

end Sample

open Sample in
theorem regions_packed_sample :
    config.validate = .ok () ∧ compute config = .ok placed ∧
      placed.regions.map (fun r => (r.bytes, r.align)) = demands config ∧
      (placed.regions.Pairwise fun r r' => r.limit ≤ r'.offset) ∧
      placed.hostSpan = .ok ⟨320, 1129, 64⟩ ∧ 16 ∣ (placed.replica 2).offset - 320 := by
  have hvalid : config.validate = .ok () := by decide
  have hlayout : compute config = .ok placed := by decide
  obtain ⟨hdemands, -, hpairwise, -, -, -, span, hspan, -, -, -, -, hreplicas, -⟩ :=
    regions_packed hvalid hlayout
  obtain rfl : ⟨320, 1129, 64⟩ = span := Except.ok.inj hspan
  exact ⟨hvalid, hlayout, hdemands, hpairwise, hspan, (hreplicas 2 (by decide)).2⟩

end LaunchLayout
end Lockstep
