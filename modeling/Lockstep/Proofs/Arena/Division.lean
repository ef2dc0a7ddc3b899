import Lockstep.Arena
import Lockstep.Proofs.Layout.Geometry
import Lockstep.Proofs.Memory

/-!
# The division of an arena

An arena has room for all its replicas, side by side at multiples of their alignment, and
for the temporary region behind them.
-/

namespace Lockstep

theorem TmpAllocator.alloc_eq_some {t t' : TmpAllocator} {bytes align start : Nat}
    (h : t.alloc bytes align = some (start, t')) :
    Word.isPowerOfTwo align = true ∧ start = Word.alignUp t.used align ∧
      start + bytes ≤ t.capacity ∧ t' = { t with used := start + bytes } := by
  unfold TmpAllocator.alloc at h
  split at h
  · rename_i halign
    dsimp only at h
    split at h
    · rename_i hfits
      obtain ⟨rfl, rfl⟩ := Prod.mk.inj (Option.some.inj h)
      exact ⟨(Bool.and_eq_true ..▸ halign).1, rfl, hfits, rfl⟩
    · contradiction
  · contradiction

namespace RunArena

variable {a a' : RunArena} {world other : WorldId}

/-- Where the data of a replica starts in the allocation. -/
def worldStart (a : RunArena) (world : WorldId) : Nat :=
  a.layout.worldData.offset - a.span.offset + world.index * a.layout.worldStride

theorem worldOffset?_of_lt (h : world.raw < a.numWorlds) :
    a.worldOffset? world = some (a.worldStart world) := if_pos h

theorem worldOffset?_of_le (h : a.numWorlds ≤ world.raw) : a.worldOffset? world = none :=
  if_neg (UInt32.not_lt.2 h)

theorem worldStart_add_le (h : world.index < other.index) :
    a.worldStart world + a.layout.worldStride ≤ a.worldStart other := by
  have hmul := Nat.mul_le_mul_right a.layout.worldStride (Nat.succ_le_of_lt h)
  rw [Nat.succ_mul] at hmul
  rw [worldStart, worldStart]
  omega

/-- What calls never change. -/
structure SamePlan (a a' : RunArena) : Prop where
  layout : a'.layout = a.layout
  span : a'.span = a.span
  numWorlds : a'.numWorlds = a.numWorlds
  capacity : a'.tmp.capacity = a.tmp.capacity

theorem SamePlan.worldStart (h : SamePlan a a') (world : WorldId) :
    a'.worldStart world = a.worldStart world := by
  rw [RunArena.worldStart, RunArena.worldStart, h.layout, h.span]

theorem SamePlan.tmpOffset (h : SamePlan a a') : a'.tmpOffset = a.tmpOffset := by
  rw [RunArena.tmpOffset, RunArena.tmpOffset, h.layout, h.span]

/-- An allocation that has room for all replicas, aligned, and for the temporary region
behind them. -/
structure Divided (a : RunArena) (align : Nat) : Prop where
  dvd_worldStart : ∀ world, align ∣ a.worldStart world
  worldStart_le : ∀ world, world.raw < a.numWorlds →
    a.worldStart world + a.layout.worldStride ≤ a.tmpOffset
  len_eq : a.tmpOffset + a.tmp.capacity = a.len

theorem Divided.congr {align : Nat} (h : a.Divided align) (hplan : SamePlan a a') :
    a'.Divided align := by
  refine ⟨fun world => ?_, fun world hworld => ?_, ?_⟩
  · rw [hplan.worldStart]
    exact h.dvd_worldStart world
  · rw [hplan.numWorlds] at hworld
    rw [hplan.worldStart, hplan.tmpOffset, hplan.layout]
    exact h.worldStart_le world hworld
  · rw [hplan.tmpOffset, hplan.capacity, len, hplan.span]
    exact h.len_eq

theorem new_ok {layout : LaunchLayout} {numWorlds : UInt32} (h : new layout numWorlds = .ok a) :
    ∃ span, layout.hostSpan = .ok span ∧
      a = ⟨layout, span, numWorlds, .zeroed, ⟨layout.tmpAlloc.bytes, 0⟩⟩ := by
  obtain ⟨span, hspan, h⟩ := exists_of_bind h
  split at h
  · exact ⟨span, hspan, (Except.ok.inj h).symm⟩
  · contradiction

theorem divided_of_new {c : EngineConfig} {layout : LaunchLayout} (hvalid : c.validate = .ok ())
    (hlayout : LaunchLayout.compute c = .ok layout) (h : new layout c.state.numWorlds = .ok a) :
    a.Divided c.worldDataAlign.toNat := by
  obtain ⟨span, hspan, rfl⟩ := new_ok h
  have hplaces := LaunchLayout.places_of_compute hlayout
  have hspans := hplaces.spans (EngineConfig.isPowerOfTwo_of_validate hvalid) hspan
  have hoffset := hspans.offset_le
  have hworldData := hspans.worldData_le
  have hlimit := hspans.limit
  rw [Region.limit] at hworldData hlimit
  rw [Region.limit] at hlimit
  refine ⟨fun world => ?_, fun world hworld => ?_, ?_⟩
  · rw [← hplaces.worldData_align]
    exact Nat.dvd_add hspans.dvd_offset (hspans.dvd_stride.mul_left _)
  · have hreplica := hplaces.replica_le (UInt32.lt_iff_toNat_lt.1 hworld)
    change world.index * layout.worldStride + _ ≤ _ at hreplica
    simp only [worldStart, tmpOffset]
    omega
  · simp only [tmpOffset, len]
    omega

theorem writeWorld?_eq {position : Nat} {bytes : List UInt8} (h : world.raw < a.numWorlds) :
    a.writeWorld? world position bytes =
      some (if position + bytes.length ≤ a.layout.worldStride then
        some { a with memory := a.memory.write (a.worldStart world + position) bytes }
      else none) := by
  rw [writeWorld?, worldOffset?_of_lt h, Option.map_some]

theorem writeWorld?_of_le (h : a.numWorlds ≤ world.raw) (position : Nat) (bytes : List UInt8) :
    a.writeWorld? world position bytes = none := by
  rw [writeWorld?, worldOffset?_of_le h, Option.map_none]

theorem alloc_eq_some {bytes align start : Nat} (h : a.alloc bytes align = some (start, a')) :
    a.tmp.used ≤ start ∧ start + bytes ≤ a.tmp.capacity ∧
      a' = { a with tmp := ⟨a.tmp.capacity, start + bytes⟩ } := by
  obtain ⟨⟨start', tmp⟩, htmp, h⟩ := Option.map_eq_some_iff.1 h
  obtain ⟨rfl, rfl⟩ := Prod.mk.inj h
  obtain ⟨halign, hstart, hfits, rfl⟩ := TmpAllocator.alloc_eq_some htmp
  exact ⟨hstart ▸ Word.le_alignUp _ (Word.pos_of_isPowerOfTwo halign), hfits, rfl⟩

theorem tmpFill_eq (a : RunArena) (start len : Nat) (b : UInt8) :
    a.tmpFill start len b = a.tmpWrite start (List.replicate len b) := by
  rw [tmpFill, tmpWrite, Memory.fill_eq]

end RunArena

end Lockstep
