import Lockstep.Arena
import Lockstep.Proofs.Layout.Geometry

/-!
# What a layout demands

Whether a configuration gets its layout and its arena is decided by what the host has to
back: if that can be allocated, then the rest of the layout fits 64-bit words too.
-/

namespace Lockstep

namespace LaunchLayout

variable {c : EngineConfig} {l : LaunchLayout}

def hostAlign (l : LaunchLayout) : Nat := max l.worldData.align l.tmpAlloc.align

theorem hostAlign_pos (c : EngineConfig) : 0 < (ideal c).hostAlign := by
  apply Nat.lt_of_lt_of_le _ (Nat.le_max_right _ _)
  exact show 0 < tmpAlign by decide

/-- The size of the host span. -/
def hostBytes (l : LaunchLayout) : Nat :=
  l.tmpAlloc.limit - l.worldData.offset / l.hostAlign * l.hostAlign

/-- Whether the host span can be allocated, or is empty. -/
def IsBackable (l : LaunchLayout) : Prop :=
  l.hostBytes = 0 ∨ Word.representable l.hostBytes l.hostAlign = true

theorem hostBytes_le {l : LaunchLayout} (hpos : 0 < l.hostAlign) (h : l.IsBackable) :
    l.hostBytes ≤ Word.maxAllocation := by
  rcases h with hzero | hrepresentable
  · exact hzero ▸ Nat.zero_le _
  · simp only [Word.representable, Bool.and_eq_true, decide_eq_true_eq] at hrepresentable
    exact (Word.le_alignUp _ hpos).trans hrepresentable.2

/-- The buffers behind the host span are small against what is left of a word. -/
theorem totalBytes_lt (halign : 0 < c.worldDataAlign.toNat) (h : (ideal c).IsBackable) :
    (ideal c).totalBytes < Word.size64 := by
  have hbacked := hostBytes_le (hostAlign_pos c) h
  have hlimit : (afterTmp c).cursor ≤ (ideal c).hostBytes + (ideal c).worldData.offset := by
    have hle := Nat.div_mul_le_self (ideal c).worldData.offset (ideal c).hostAlign
    have htmp : (ideal c).tmpAlloc.limit = (afterTmp c).cursor := rfl
    rw [hostBytes, htmp]
    omega
  have hoffset : (ideal c).worldData.offset < 352 + c.worldDataAlign.toNat :=
    Word.alignUp_lt 352 halign
  have hword := c.worldDataAlign.toNat_lt
  have hprint : printBytes c ≤ 2 ^ 32 * 256 := Nat.mul_le_mul_right _ c.printCapacity.toNat_lt.le
  have htrace : traceBytes c ≤ 2 ^ 32 * 32 := by
    apply Nat.mul_le_mul_right
    split
    · exact c.trace.capacity.toNat_lt.le
    · exact Nat.zero_le _
  have hafterPrint : (afterPrint c).cursor < (afterTmp c).cursor + 8 + printBytes c :=
    Nat.add_lt_add_right (Word.alignUp_lt _ (by decide)) _
  have hafterTrace : (afterTrace c).cursor < (afterPrint c).cursor + 8 + traceBytes c :=
    Nat.add_lt_add_right (Word.alignUp_lt _ (by decide)) _
  change (afterTrace c).cursor < 2 ^ 64
  change _ ≤ 2 ^ 63 - 1 at hbacked
  omega

theorem hostSpan_eq (h : l.tmpAlloc.limit < Word.size64) :
    l.hostSpan = .ok ⟨l.worldData.offset / l.hostAlign * l.hostAlign, l.hostBytes, l.hostAlign⟩ :=
  bind_of_eq_ok (if_pos h)

theorem new_eq_ok_iff (h : l.tmpAlloc.limit < Word.size64) (numWorlds : UInt32) :
    (∃ a, RunArena.new l numWorlds = .ok a) ↔ l.IsBackable := by
  have hnew : RunArena.new l numWorlds = _ := bind_of_eq_ok (hostSpan_eq h)
  rw [hnew]
  by_cases hbackable : l.hostBytes = 0 ∨ Word.representable l.hostBytes l.hostAlign = true
  · exact ⟨fun _ => hbackable, fun _ => ⟨_, if_pos hbackable⟩⟩
  · refine ⟨fun ⟨a, ha⟩ => ?_, fun h => absurd h hbackable⟩
    rw [if_neg hbackable] at ha
    contradiction

/-- A configuration gets its layout and its arena exactly if the host span can be backed. -/
theorem exists_arena_iff (halign : 0 < c.worldDataAlign.toNat) (numWorlds : UInt32) :
    (∃ l a, compute c = .ok l ∧ RunArena.new l numWorlds = .ok a) ↔ (ideal c).IsBackable := by
  have hlimit : ∀ {n}, (ideal c).totalBytes < n → (ideal c).tmpAlloc.limit < n :=
    (tmp_le_total c).trans_lt
  constructor
  · rintro ⟨l, a, hl, ha⟩
    obtain ⟨htotal, rfl⟩ := compute_eq_ok_iff.1 hl
    exact (new_eq_ok_iff (hlimit htotal) numWorlds).1 ⟨a, ha⟩
  · intro h
    have htotal := totalBytes_lt halign h
    obtain ⟨a, ha⟩ := (new_eq_ok_iff (hlimit htotal) numWorlds).2 h
    exact ⟨_, a, compute_eq_ok_iff.2 ⟨htotal, rfl⟩, ha⟩

end LaunchLayout
end Lockstep
