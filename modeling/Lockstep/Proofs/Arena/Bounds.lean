import Lockstep.Proofs.Arena.Isolation

/-!
# Bounds of replica data

An arena is told how many replicas it has, beside the layout that was made for a number of
replicas.  A replica lies in the region of the replica data exactly if the layout has it, or
if replicas take up no room; one past the layout reaches into the temporary region, or past
the allocation.
-/

namespace Lockstep

namespace RunArena.SamePlan

variable {a a' a'' : RunArena}

theorem refl (a : RunArena) : SamePlan a a := ⟨rfl, rfl, rfl, rfl⟩

theorem trans (h : SamePlan a a') (h' : SamePlan a' a'') : SamePlan a a'' :=
  ⟨h'.layout.trans h.layout, h'.span.trans h.span, h'.numWorlds.trans h.numWorlds,
    h'.capacity.trans h.capacity⟩

end RunArena.SamePlan

namespace ArenaSession

open RunArena

theorem samePlan_next (s : ArenaSession) (call : ArenaCall) :
    SamePlan s.arena (s.next call).arena := by
  cases call with
  | write world position bytes =>
      rcases UInt32.lt_or_le world.raw s.arena.numWorlds with h | h
      · rw [next_write h]
        split <;> exact ⟨rfl, rfl, rfl, rfl⟩
      · rw [next, writeWorld?_of_le h]
        exact .refl _
  | alloc bytes align =>
      rw [next]
      split
      · rename_i halloc
        obtain ⟨-, -, rfl⟩ := alloc_eq_some halloc
        exact ⟨rfl, rfl, rfl, rfl⟩
      · exact .refl _
  | fill k position bytes =>
      rw [next]
      split
      · split <;> exact ⟨rfl, rfl, rfl, rfl⟩
      · exact .refl _
  | reset => exact ⟨rfl, rfl, rfl, rfl⟩

theorem samePlan_after (s : ArenaSession) (calls : List ArenaCall) :
    SamePlan s.arena (s.after calls).arena := by
  induction calls generalizing s with
  | nil => exact .refl _
  | cons call calls ih => exact (s.samePlan_next call).trans (ih (s.next call))

end ArenaSession

/-! ## Regions of the allocation -/

namespace RunArena

variable {a a' : RunArena} {c : EngineConfig} {world : WorldId}

/-- Where the region of the replica data starts in the allocation. -/
def worldFirst (a : RunArena) : Nat := a.layout.worldData.offset - a.span.offset

/-- Where the region of the replica data stops in the allocation. -/
def worldStop (a : RunArena) : Nat := a.layout.worldData.limit - a.span.offset

structure InWorldData (a : RunArena) (start len : Nat) : Prop where
  first_le : a.worldFirst ≤ start
  le_stop : start + len ≤ a.worldStop

/-- The regions of an allocation: room for the replicas that the configuration has, then the
temporary region up to the end. -/
structure Regions (c : EngineConfig) (a : RunArena) : Prop where
  stop_eq : a.worldStop = a.worldFirst + c.state.numWorlds.toNat * a.layout.worldStride
  stop_le : a.worldStop ≤ a.tmpOffset
  len_eq : a.tmpOffset + a.tmp.capacity = a.len

theorem regions_of_new {layout : LaunchLayout} {numWorlds : UInt32} (hvalid : c.validate = .ok ())
    (hlayout : LaunchLayout.compute c = .ok layout) (h : new layout numWorlds = .ok a) :
    a.Regions c := by
  obtain ⟨span, hspan, rfl⟩ := new_ok h
  have hplaces := LaunchLayout.places_of_compute hlayout
  have hspans := hplaces.spans (EngineConfig.isPowerOfTwo_of_validate hvalid) hspan
  have hbytes : layout.worldData.bytes = c.state.numWorlds.toNat * layout.worldStride := by
    rw [hplaces.worldData, hplaces.worldStride]
  have hoffset := hspans.offset_le
  have hworldData := hspans.worldData_le
  have hlimit := hspans.limit
  rw [Region.limit] at hworldData hlimit
  rw [Region.limit] at hlimit
  refine ⟨?_, ?_, ?_⟩
  · simp only [worldStop, worldFirst, Region.limit, hbytes]
    omega
  · simp only [worldStop, tmpOffset, Region.limit]
    omega
  · simp only [tmpOffset, len]
    omega

theorem Regions.congr (h : a.Regions c) (hplan : SamePlan a a') : a'.Regions c := by
  obtain ⟨hstop, hle, hlen⟩ := h
  unfold worldStop worldFirst tmpOffset len at *
  rw [← hplan.layout, ← hplan.span] at hstop hle hlen
  rw [← hplan.capacity] at hlen
  exact ⟨hstop, hle, hlen⟩

/-- The data of a replica keeps to its region exactly if the layout has the replica. -/
theorem Regions.inWorldData_iff (h : a.Regions c) :
    a.InWorldData (a.worldStart world) a.layout.worldStride ↔
      world.raw < c.state.numWorlds ∨ a.layout.worldStride = 0 := by
  have hstart : a.worldStart world = a.worldFirst + world.index * a.layout.worldStride := rfl
  have hstop : a.worldStart world + a.layout.worldStride ≤ a.worldStop ↔
      (world.index + 1) * a.layout.worldStride ≤
        c.state.numWorlds.toNat * a.layout.worldStride := by
    rw [h.stop_eq, hstart, Nat.succ_mul, Nat.add_assoc, Nat.add_le_add_iff_left]
  have hfirst : a.worldFirst ≤ a.worldStart world := hstart ▸ Nat.le_add_right ..
  constructor
  · rintro ⟨-, hle⟩
    rcases Nat.eq_zero_or_pos a.layout.worldStride with hzero | hpos
    · exact .inr hzero
    · exact .inl (UInt32.lt_iff_toNat_lt.2 (Nat.le_of_mul_le_mul_right (hstop.1 hle) hpos))
  · rintro (hlt | hzero)
    · exact ⟨hfirst, hstop.2 (Nat.mul_le_mul_right _ (UInt32.lt_iff_toNat_lt.1 hlt))⟩
    · exact ⟨hfirst, hstop.2 (by rw [hzero, Nat.mul_zero, Nat.mul_zero])⟩

/-- A write into a replica leaves all bytes outside of the replica as they are. -/
theorem byte_of_writeWorld? {position : Nat} {bytes : List UInt8}
    (h : a.writeWorld? world position bytes = some (some a')) {addr : Nat}
    (haddr : addr < a.worldStart world ∨ a.worldStart world + a.layout.worldStride ≤ addr) :
    a'.memory.byte addr = a.memory.byte addr := by
  have hlt : world.raw < a.numWorlds := by
    by_contra hge
    rw [writeWorld?_of_le (UInt32.not_lt.1 hge)] at h
    contradiction
  rw [writeWorld?_eq hlt] at h
  split at h
  · rename_i hfits
    obtain rfl := Option.some.inj (Option.some.inj h)
    change (a.memory.write _ bytes).byte addr = _
    rw [Memory.byte_write, if_neg (by omega)]
  · cases Option.some.inj h

variable {layout : LaunchLayout} {numWorlds : UInt32}

/-- Whatever the number of replicas that an arena is told, and whatever calls it has served: a
replica past that number is not answered.  All others are answered at one place, of which
reads and writes keep to the stride, and that place is in the region of the replica data, in
front of the temporary region, exactly if the layout has the replica or if the stride is
zero.  So all answers are in bounds exactly for the numbers up to that of the layout, or for
a stride of zero. -/
theorem replicas_in_bounds (hvalid : c.validate = .ok ())
    (hlayout : LaunchLayout.compute c = .ok layout) (hnew : new layout numWorlds = .ok a)
    (calls : List ArenaCall) :
    let s := ((ArenaSession.start a).after calls).arena
    (s.worldStop ≤ s.tmpOffset ∧ s.tmpOffset + s.tmp.capacity = s.len) ∧
    (∀ world, numWorlds ≤ world.raw → s.worldOffset? world = none ∧ s.worldData? world = none ∧
      ∀ position bytes, s.writeWorld? world position bytes = none) ∧
    (∀ world, world.raw < numWorlds → ∃ start, s.worldOffset? world = some start ∧
      s.worldData? world = some (s.memory.read start layout.worldStride) ∧
      (∀ position bytes s', s.writeWorld? world position bytes = some (some s') →
        ∀ addr, addr < start ∨ start + layout.worldStride ≤ addr →
          s'.memory.byte addr = s.memory.byte addr) ∧
      (s.InWorldData start layout.worldStride ↔
        world.raw < c.state.numWorlds ∨ layout.worldStride = 0)) ∧
    ((∀ world start, s.worldOffset? world = some start →
        s.InWorldData start layout.worldStride) ↔
      numWorlds ≤ c.state.numWorlds ∨ layout.worldStride = 0) := by
  intro s
  obtain ⟨span, -, rfl⟩ := new_ok hnew
  have hplan : SamePlan _ s := (ArenaSession.start _).samePlan_after calls
  have hregions := (regions_of_new hvalid hlayout hnew).congr hplan
  have hcount : s.numWorlds = numWorlds := hplan.numWorlds
  have hstride : s.layout.worldStride = layout.worldStride := by rw [hplan.layout]; rfl
  have hiff : ∀ world, s.InWorldData (s.worldStart world) layout.worldStride ↔
      world.raw < c.state.numWorlds ∨ layout.worldStride = 0 := by
    intro world
    rw [← hstride]
    exact hregions.inWorldData_iff
  refine ⟨⟨hregions.stop_le, hregions.len_eq⟩, fun world hworld => ?_, fun world hworld => ?_,
    ?_, ?_⟩
  · rw [← hcount] at hworld
    have hnone := worldOffset?_of_le hworld
    exact ⟨hnone, by rw [worldData?, hnone, Option.map_none], writeWorld?_of_le hworld⟩
  · rw [← hcount] at hworld
    have hsome := worldOffset?_of_lt hworld
    refine ⟨_, hsome, by rw [worldData?, hsome, Option.map_some, hstride], ?_, hiff world⟩
    intro position bytes s' hwrite addr haddr
    exact byte_of_writeWorld? hwrite (hstride.symm ▸ haddr)
  · intro hall
    by_cases hle : numWorlds ≤ c.state.numWorlds
    · exact .inl hle
    -- The first replica that the layout does not have.
    have hlt : (⟨c.state.numWorlds⟩ : WorldId).raw < s.numWorlds := by
      rw [hcount]
      exact UInt32.not_le.1 hle
    have hin := (hiff _).1 (hall _ _ (worldOffset?_of_lt hlt))
    exact .inr (hin.resolve_left (UInt32.lt_irrefl _))
  · intro hroom world start hstart
    rcases UInt32.lt_or_le world.raw s.numWorlds with hlt | hge
    · obtain rfl := Option.some.inj ((worldOffset?_of_lt hlt).symm.trans hstart)
      refine (hiff world).2 (hroom.imp_left fun hle => ?_)
      rw [hcount] at hlt
      exact UInt32.lt_of_lt_of_le hlt hle
    · rw [worldOffset?_of_le hge] at hstart
      contradiction

namespace Sample

/-- An arena that is told of more replicas than its layout has. -/
def crowded : RunArena := { arena with numWorlds := 100 }

end Sample

open Sample in
theorem replicas_in_bounds_sample :
    config.validate = .ok () ∧ LaunchLayout.compute config = .ok placed ∧
      new placed 100 = .ok crowded ∧ crowded.InWorldData 48 8 ∧ ¬ crowded.InWorldData 56 8 := by
  have hvalid : config.validate = .ok () := by decide
  have hlayout : LaunchLayout.compute config = .ok placed := by decide
  have hnew : new placed 100 = .ok crowded := rfl
  obtain ⟨-, -, hanswers, -⟩ := replicas_in_bounds hvalid hlayout hnew []
  refine ⟨hvalid, hlayout, hnew, ?_, ?_⟩
  · obtain ⟨start, hstart, -, -, hin⟩ := hanswers ⟨2⟩ (by decide)
    obtain rfl : 48 = start := Option.some.inj hstart
    exact hin.2 (by decide)
  · obtain ⟨start, hstart, -, -, hin⟩ := hanswers ⟨3⟩ (by decide)
    obtain rfl : 56 = start := Option.some.inj hstart
    exact fun h => absurd (hin.1 h) (by decide)

open Sample in
/-- A replica that the layout does not have shows what is in a temporary block, and another
one lies past the allocation. -/
theorem replica_out_of_bounds :
    config.validate = .ok () ∧ LaunchLayout.compute config = .ok placed ∧
      new placed 100 = .ok crowded ∧
      (∃ a, crowded.alloc 8 8 = some (0, a) ∧ a.worldOffset? ⟨4⟩ = some a.tmpOffset ∧
        (a.tmpFill 0 8 171).worldData? ⟨4⟩ = some (List.replicate 8 171)) ∧
      crowded.worldOffset? ⟨99⟩ = some 824 ∧ crowded.len = 104 := by
  refine ⟨by decide, by decide, rfl, ⟨_, rfl, by decide, ?_⟩, by decide, rfl⟩
  rw [tmpFill_eq]
  exact congrArg some (Memory.read_write _ 64 (List.replicate 8 171))

end RunArena
end Lockstep
