import Lockstep.Bytes
import Lockstep.Memory
import Mathlib.Data.List.Basic

/-!
# Reading what was written

Memory reads as it was last written.  A write replaces the bytes of its own range and
leaves all others.
-/

namespace Lockstep

namespace Bytes

variable {bs new : List UInt8} {position : Nat}

@[simp] theorem length_overwrite (h : position + new.length ≤ bs.length) :
    (overwrite bs position new).length = bs.length := by
  simp only [overwrite, List.length_append, List.length_take, List.length_drop]
  omega

theorem getElem?_overwrite (h : position + new.length ≤ bs.length) (i : Nat) :
    (overwrite bs position new)[i]? =
      if position ≤ i ∧ i < position + new.length then new[i - position]? else bs[i]? := by
  have htake : (bs.take position).length = position := List.length_take_of_le (by omega)
  rw [overwrite, List.append_assoc]
  rcases Nat.lt_or_ge i position with hbefore | hfrom
  · rw [if_neg (by omega), List.getElem?_append_left (by rwa [htake]),
      List.getElem?_take_of_lt hbefore]
  rw [List.getElem?_append_right (by rwa [htake]), htake]
  rcases Nat.lt_or_ge i (position + new.length) with hin | hafter
  · rw [if_pos ⟨hfrom, hin⟩, List.getElem?_append_left (by omega)]
  · rw [if_neg (by omega), List.getElem?_append_right (by omega), List.getElem?_drop]
    congr 1
    omega

end Bytes

namespace Memory

theorem byte_write (m : Memory) (start : Nat) (bs : List UInt8) (addr : Nat) :
    (m.write start bs).byte addr =
      if start ≤ addr ∧ addr < start + bs.length then bs.getD (addr - start) 0
      else m.byte addr := by
  induction bs generalizing m start with
  | nil =>
      rw [write, if_neg]
      rw [List.length_nil]
      omega
  | cons b bs ih =>
      rw [write, ih, byte_writeByte, List.length_cons]
      by_cases hstart : start = addr
      · subst hstart
        rw [if_neg (by omega), if_pos rfl, if_pos (by omega), Nat.sub_self, List.getD_cons_zero]
      · rw [if_neg hstart]
        by_cases hin : start + 1 ≤ addr ∧ addr < start + 1 + bs.length
        · rw [if_pos hin, if_pos (by omega), show addr - start = addr - (start + 1) + 1 by omega,
            List.getD_cons_succ]
        · rw [if_neg hin, if_neg (by omega)]

theorem read_write (m : Memory) (start : Nat) (bs : List UInt8) :
    (m.write start bs).read start bs.length = bs := by
  apply List.ext_getElem (length_read _ _ _)
  intro i _ hi
  have hbyte : (m.write start bs).byte (start + i) = bs[i] := by
    rw [byte_write, if_pos (by omega), Nat.add_sub_cancel_left, List.getD_eq_getElem?_getD,
      List.getElem?_eq_getElem hi, Option.getD_some]
  simpa [read] using hbyte

theorem read_write_apart (m : Memory) {start other len : Nat} {bs : List UInt8}
    (h : start + bs.length ≤ other ∨ other + len ≤ start) :
    (m.write start bs).read other len = m.read other len := by
  apply List.map_congr_left
  intro i hi
  have hi := List.mem_range.1 hi
  rw [byte_write, if_neg (by omega)]

theorem getElem?_read (m : Memory) (start : Nat) {len i : Nat} (h : i < len) :
    (m.read start len)[i]? = some (m.byte (start + i)) := by
  simp [read, h]

/-- A write into a range replaces what is read there from its position on. -/
theorem read_write_within (m : Memory) (start : Nat) {len position : Nat} {bs : List UInt8}
    (h : position + bs.length ≤ len) :
    (m.write (start + position) bs).read start len =
      Bytes.overwrite (m.read start len) position bs := by
  have hfits : position + bs.length ≤ (m.read start len).length := by rwa [length_read]
  apply List.ext_getElem?
  intro i
  rw [Bytes.getElem?_overwrite hfits]
  rcases Nat.lt_or_ge i len with hi | hi
  · rw [getElem?_read _ _ hi, byte_write, getElem?_read _ _ hi]
    by_cases hin : position ≤ i ∧ i < position + bs.length
    · rw [if_pos hin, if_pos (by omega), show start + i - (start + position) = i - position by omega,
        List.getD_eq_getElem?_getD, List.getElem?_eq_getElem (by omega), Option.getD_some]
    · rw [if_neg hin, if_neg (by omega)]
  · rw [if_neg (by omega), List.getElem?_eq_none (by rwa [length_read]),
      List.getElem?_eq_none (by rwa [length_read])]

theorem fill_eq (m : Memory) (start : Nat) (b : UInt8) (len : Nat) :
    m.fill start b len = m.write start (List.replicate len b) := by
  induction len generalizing m start with
  | zero => rfl
  | succ len ih => exact ih (m.writeByte start b) (start + 1)

theorem read_zeroed (start len : Nat) : ∀ b ∈ zeroed.read start len, b = 0 := by
  intro b hb
  obtain ⟨i, -, rfl⟩ := List.mem_map.1 hb
  exact byte_zeroed _

end Memory
end Lockstep
