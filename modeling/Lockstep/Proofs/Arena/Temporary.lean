import Lockstep.Arena.Temporary
import Lockstep.Proofs.Arena.Division
import Lockstep.Proofs.Layout.Packing

/-!
# Temporary blocks

The blocks that are out are packed from the start of the region on, and what is used ends with
the last of them.  A region is smaller than 2 ^ 63 bytes, so what is reckoned in 64-bit words is
what is reckoned without bound.
-/

namespace Lockstep

namespace TmpAllocator

variable {t : TmpAllocator}

def Serves (align : Nat) : Prop :=
  (Word.isPowerOfTwo align && decide (align ≤ LaunchLayout.tmpAlign)) = true

theorem serves_iff {align : Nat} :
    Serves align ↔ (∃ k, align = 2 ^ k) ∧ align ≤ LaunchLayout.tmpAlign := by
  rw [Serves, Bool.and_eq_true, decide_eq_true_eq, Word.isPowerOfTwo_iff]

theorem alloc_of_serves {bytes align : Nat} (h : Serves align) :
    t.alloc bytes align =
      if Word.alignUp t.used align + bytes ≤ t.capacity then
        some (Word.alignUp t.used align, { t with used := Word.alignUp t.used align + bytes })
      else none := if_pos h

theorem alloc_of_not_serves {bytes align : Nat} (h : ¬ Serves align) :
    t.alloc bytes align = none := if_neg h

theorem alloc_eq_none_iff {bytes align : Nat} :
    t.alloc bytes align = none ↔
      (¬ ∃ k, align = 2 ^ k) ∨ LaunchLayout.tmpAlign < align ∨
        t.capacity < Word.alignUp t.used align + bytes := by
  by_cases h : Serves align
  · obtain ⟨hpower, hle⟩ := serves_iff.1 h
    rw [alloc_of_serves h]
    split
    · rename_i hfits
      refine ⟨fun hnone => by contradiction, ?_⟩
      rintro (hodd | hlarge | hfull)
      · exact absurd hpower hodd
      · exact absurd hle (Nat.not_le.2 hlarge)
      · exact absurd hfits (Nat.not_le.2 hfull)
    · rename_i hfull
      exact ⟨fun _ => .inr (.inr (Nat.lt_of_not_le hfull)), fun _ => rfl⟩
  · refine ⟨fun _ => ?_, fun _ => alloc_of_not_serves h⟩
    rw [serves_iff, not_and_or, Nat.not_le] at h
    exact h.imp_right .inl

/-- In a region that an arena can have, words do as well as numbers without bound. -/
theorem allocWords_eq (hcapacity : t.capacity < 2 ^ 63) (hused : t.used ≤ t.capacity)
    (bytes align : UInt64) :
    t.allocWords bytes align = .ok (t.alloc bytes.toNat align.toNat) := by
  by_cases h : Serves align.toNat
  · have hle : align.toNat ≤ 64 := (serves_iff.1 h).2
    have hpos : 0 < align.toNat :=
      Word.pos_of_isPowerOfTwo (Word.isPowerOfTwo_iff.2 (serves_iff.1 h).1)
    have hnear := Word.alignUp_lt t.used hpos
    have hstart : Word.mul Word.size64 (Word.ceilDiv t.used align.toNat) align.toNat =
        .ok (Word.alignUp t.used align.toNat) := by
      apply if_pos
      change Word.alignUp t.used align.toNat < 2 ^ 64
      omega
    refine (if_pos h).trans ((bind_of_eq_ok hstart).trans (congrArg Except.ok ?_))
    rw [alloc_of_serves h, Word.add?]
    by_cases hfits : Word.alignUp t.used align.toNat + bytes.toNat ≤ t.capacity
    · have hword : Word.alignUp t.used align.toNat + bytes.toNat < Word.size64 :=
        hfits.trans_lt (hcapacity.trans (by decide))
      rw [if_pos hfits, if_pos hword, Option.filter_some, if_pos (decide_eq_true hfits)]
      rfl
    · rw [if_neg hfits]
      split
      · rw [Option.filter_some, if_neg fun hle => hfits (of_decide_eq_true hle)]
        rfl
      · rfl
  · rw [alloc_of_not_serves h]
    exact if_neg h

end TmpAllocator

namespace TmpLog

variable {s : TmpLog} {capacity : Nat}

structure Sound (capacity : Nat) (s : TmpLog) : Prop where
  capacity_eq : s.tmp.capacity = capacity
  packed : Region.Packed s.blocks
  used_eq : s.tmp.used = Region.lastStop s.blocks
  used_le : s.tmp.used ≤ capacity

theorem sound_start (capacity : Nat) : (start capacity).Sound capacity :=
  ⟨rfl, .nil, rfl, Nat.zero_le _⟩

namespace Sound

variable (h : s.Sound capacity)
include h

theorem alloc (bytes align : UInt64) : (s.next (.alloc bytes align)).Sound capacity := by
  cases halloc : s.tmp.alloc bytes.toNat align.toNat with
  | none =>
      simp only [next, halloc]
      exact h
  | some result =>
      obtain ⟨first, tmp⟩ := result
      obtain ⟨hpower, rfl, hfits, rfl⟩ := TmpAllocator.alloc_eq_some halloc
      have hpacked := h.packed.place bytes.toNat (Word.pos_of_isPowerOfTwo hpower)
      rw [← h.used_eq] at hpacked
      simp only [next, halloc]
      refine ⟨h.capacity_eq, hpacked, ?_, h.capacity_eq ▸ hfits⟩
      rw [Region.lastStop_concat]
      rfl

theorem reset : (s.next .reset).Sound capacity :=
  ⟨h.capacity_eq, .nil, rfl, Nat.zero_le _⟩

theorem step (call : TmpCall) : (s.next call).Sound capacity := by
  cases call with
  | alloc bytes align => exact h.alloc bytes align
  | reset => exact h.reset

theorem after (calls : List TmpCall) : (s.after calls).Sound capacity := by
  induction calls generalizing s with
  | nil => exact h
  | cons call calls ih => exact ih (h.step call)

end Sound

/-- Whatever is asked of a temporary region, and however often it is taken back: the blocks that
are out lie one behind the other inside the region, each at a multiple of the alignment that was
asked for and with less than that lost in front of it, and what is used ends with the last of
them.  A block is refused exactly if its alignment is no power of two or larger than that of
the region, or if it would end behind the region, however large it is; to be refused changes
nothing.  To reckon in words comes to the same and never faults. -/
theorem blocks_packed (hcapacity : capacity < 2 ^ 63) (calls : List TmpCall) :
    let s := (start capacity).after calls
    (s.blocks.Pairwise fun b b' => b.limit ≤ b'.offset) ∧
    (∀ b ∈ s.blocks, b.align ∣ b.offset ∧ b.limit ≤ capacity) ∧
    (∀ before b later, s.blocks = before ++ b :: later →
      b.offset < Region.lastStop before + b.align) ∧
    s.tmp.used = Region.lastStop s.blocks ∧ s.tmp.used ≤ capacity ∧
    ∀ bytes align : UInt64,
      (s.tmp.alloc bytes.toNat align.toNat = none ↔
        (¬ ∃ k, align.toNat = 2 ^ k) ∨ LaunchLayout.tmpAlign < align.toNat ∨
          capacity < Word.alignUp s.tmp.used align.toNat + bytes.toNat) ∧
      (s.tmp.alloc bytes.toNat align.toNat = none → s.next (.alloc bytes align) = s) ∧
      s.tmp.allocWords bytes align = .ok (s.tmp.alloc bytes.toNat align.toNat) := by
  intro s
  have h : s.Sound capacity := (sound_start capacity).after calls
  refine ⟨h.packed.pairwise, fun b hb => ⟨h.packed.dvd_offset b hb, ?_⟩, h.packed.offset_lt,
    h.used_eq, h.used_le, fun bytes align => ⟨?_, fun hnone => ?_, ?_⟩⟩
  · apply (h.packed.limit_le_lastStop b hb).trans
    exact h.used_eq ▸ h.used_le
  · rw [← h.capacity_eq]
    exact TmpAllocator.alloc_eq_none_iff
  · simp only [next, hnone]
  · apply TmpAllocator.allocWords_eq
    · exact h.capacity_eq ▸ hcapacity
    · exact h.capacity_eq ▸ h.used_le

namespace Sample

/-- Of the largest region: blocks before a reset and after it, one that is too large for a word,
two with alignments that are not served, an empty one, and all that is left. -/
def calls : List TmpCall :=
  [.alloc 40 8, .reset, .alloc 3 1, .alloc 16 16, .alloc 0xFFFFFFFFFFFFFFFF 64, .alloc 8 3,
    .alloc 8 128, .alloc 0 64, .alloc 0x7FFFFFFFFFFFFFBF 1]

def log : TmpLog := (start 0x7FFFFFFFFFFFFFFF).after calls

end Sample

open Sample in
theorem blocks_packed_sample :
    0x7FFFFFFFFFFFFFFF < 2 ^ 63 ∧
      log.blocks = [⟨0, 3, 1⟩, ⟨16, 16, 16⟩, ⟨64, 0, 64⟩, ⟨64, 0x7FFFFFFFFFFFFFBF, 1⟩] ∧
      (log.blocks.Pairwise fun b b' => b.limit ≤ b'.offset) ∧
      log.tmp.used = Region.lastStop log.blocks ∧ log.tmp.used = 0x7FFFFFFFFFFFFFFF ∧
      log.tmp.alloc 0 64 = none ∧ log.tmp.allocWords 0 64 = .ok none := by
  have hcapacity : 0x7FFFFFFFFFFFFFFF < 2 ^ 63 := by decide
  obtain ⟨hpairwise, -, -, hused, -, hanswers⟩ := blocks_packed hcapacity calls
  obtain ⟨hnone, -, hwords⟩ := hanswers 0 64
  have hblocks :
      log.blocks = [⟨0, 3, 1⟩, ⟨16, 16, 16⟩, ⟨64, 0, 64⟩, ⟨64, 0x7FFFFFFFFFFFFFBF, 1⟩] := by
    decide
  have hrefused : log.tmp.alloc 0 64 = none := hnone.2 (.inr (.inr (by decide)))
  exact ⟨hcapacity, hblocks, hpairwise, hused, by decide, hrefused,
    hwords.trans (congrArg _ hrefused)⟩

end TmpLog
end Lockstep
