import Lockstep.Proofs.Table.Steps
import Lockstep.Proofs.Word
import Mathlib.Data.List.Perm.Basic
import Mathlib.Order.Lattice

/-!
# Rows and commit marks

Rows are handed out one after another until the reservation is used up.  The commit mark of a
column follows from the most rows that were ever asked of it: it is the end of the chunk that the
last of them lies in, unless the reservation ends before.
-/

namespace Lockstep

namespace Table

variable {reserved chunk a b : Nat}

theorem committedFor_le (reserved chunk a : Nat) : committedFor reserved chunk a ≤ reserved :=
  Nat.min_le_left _ _

theorem committedFor_mono (reserved chunk : Nat) : Monotone (committedFor reserved chunk) := by
  intro a b hab
  apply min_le_min_left
  apply Nat.mul_le_mul_left
  exact max_le_max_left _ (Word.ceilDiv_mono chunk hab)

theorem le_committedFor (hchunk : 0 < chunk) (ha : a ≤ reserved) :
    a ≤ committedFor reserved chunk a := by
  apply Nat.le_min.2 ⟨ha, ?_⟩
  exact (Word.ceilDiv_le_iff hchunk).1 (Nat.le_max_right _ _)

/-- What is committed already asks for no more. -/
theorem committedFor_le_of_le (hchunk : 0 < chunk) (h : a ≤ committedFor reserved chunk b) :
    committedFor reserved chunk a ≤ committedFor reserved chunk b := by
  apply min_le_min_left
  apply Nat.mul_le_mul_left
  apply Nat.max_le.2 ⟨Nat.le_max_left _ _, ?_⟩
  exact (Word.ceilDiv_le_iff hchunk).2 (h.trans (Nat.min_le_right _ _))

theorem committedFor_max (reserved chunk a b : Nat) :
    committedFor reserved chunk (max a b) =
      max (committedFor reserved chunk a) (committedFor reserved chunk b) :=
  (committedFor_mono reserved chunk).map_max

theorem committedFor_zero (hchunk : 0 < chunk) :
    committedFor reserved chunk 0 = min chunk reserved := by
  have hzero : Word.ceilDiv 0 chunk ≤ 0 := (Word.ceilDiv_le_iff hchunk).2 (Nat.zero_le _)
  rw [committedFor, Nat.max_eq_left (hzero.trans (Nat.zero_le 1)), Nat.mul_one, Nat.min_comm]

/-- The mark that a commit computes in words. -/
theorem committedFor_eq (hchunk : 0 < chunk) (hreserved : reserved < Word.size32) (ha : 0 < a) :
    min (Word.saturatingMul (Word.ceilDiv a chunk) chunk) reserved =
      committedFor reserved chunk a := by
  rw [committedFor, Nat.max_eq_right (Word.ceilDiv_pos ha hchunk), Word.saturatingMul,
    Nat.mul_comm chunk]
  omega

end Table

namespace Column

/-- A column with its mark where it belongs if `most` rows were asked for. -/
structure Marked (c : Column) (most : Nat) : Prop where
  chunk_pos : 0 < c.chunk
  reserved_lt : c.reservedRows < Word.size32
  committedRows : c.committedRows = Table.committedFor c.reservedRows c.chunk most

variable {c : Column} {most rows : Nat}

theorem Marked.commit_eq (h : c.Marked most) (hrows : rows ≤ c.reservedRows) :
    c.commit? rows = some { c with
      committedRows := Table.committedFor c.reservedRows c.chunk (max most rows) } := by
  rw [commit?, if_neg hrows.not_gt, Table.committedFor_max, ← h.committedRows]
  by_cases hcovered : rows ≤ c.committedRows
  · have hle : Table.committedFor c.reservedRows c.chunk rows ≤ c.committedRows := by
      rw [h.committedRows] at hcovered ⊢
      exact Table.committedFor_le_of_le h.chunk_pos hcovered
    rw [if_pos hcovered, Nat.max_eq_left hle]
  · have hpos : 0 < rows := Nat.zero_lt_of_lt (Nat.lt_of_not_le hcovered)
    rw [if_neg hcovered]
    dsimp only
    rw [Table.committedFor_eq h.chunk_pos h.reserved_lt hpos]

theorem commit_eq_none (hrows : c.reservedRows < rows) : c.commit? rows = none :=
  if_pos hrows

/-- How many rows a commit gets.  One that asks for more than the reservation gets none. -/
def granted (c : Column) (rows : Nat) : Nat := if rows ≤ c.reservedRows then rows else 0

theorem Marked.getD_commit (h : c.Marked most) (rows : Nat) :
    (c.commit? rows).getD c = { c with
      committedRows := Table.committedFor c.reservedRows c.chunk (max most (c.granted rows)) } := by
  rcases Nat.lt_or_ge c.reservedRows rows with hover | hrows
  · rw [commit_eq_none hover, granted, if_neg hover.not_ge, Nat.max_zero, ← h.committedRows]
    rfl
  · rw [h.commit_eq hrows, granted, if_pos hrows]
    rfl

theorem Marked.commit (h : c.Marked most) (rows : Nat) :
    ((c.commit? rows).getD c).Marked (max most (c.granted rows)) := by
  rw [h.getD_commit]
  exact ⟨h.chunk_pos, h.reserved_lt, rfl⟩

/-- The order of two commits makes no difference. -/
theorem Marked.commit_comm (h : c.Marked most) (rows rows' : Nat) :
    let commit := fun rows (c : Column) => (c.commit? rows).getD c
    commit rows (commit rows' c) = commit rows' (commit rows c) := by
  dsimp only
  rw [(h.commit rows').getD_commit, (h.commit rows).getD_commit, h.getD_commit, h.getD_commit]
  simp only [granted, Nat.max_right_comm]

theorem marked_new {info : TypeInfo} {reserved chunk : UInt32}
    (h : Column.new info reserved chunk = .ok c) :
    c.Marked 0 ∧ c.reservedRows = reserved.toNat ∧ c.chunk = max chunk.toNat 1 := by
  have hpos : 0 < max chunk.toNat 1 := Nat.lt_of_lt_of_le Nat.one_pos (Nat.le_max_right _ _)
  obtain rfl : ⟨info, reserved.toNat, min (max chunk.toNat 1) reserved.toNat, max chunk.toNat 1,
      .zeroed⟩ = c := by
    unfold Column.new at h
    dsimp only at h
    split at h
    · split at h
      · contradiction
      · exact Except.ok.inj h
    · split at h
      · exact Except.ok.inj h
      · contradiction
  exact ⟨⟨hpos, reserved.toNat_lt, (Table.committedFor_zero hpos).symm⟩, rfl, rfl⟩

theorem Marked.setCells (h : c.Marked most) (cells : Memory) : Marked { c with cells } most :=
  ⟨h.chunk_pos, h.reserved_lt, h.committedRows⟩

end Column

theorem Adjoin.concat {start stop : Nat} {spans : List RowSpan} (h : Adjoin start spans stop)
    (count : Nat) : Adjoin start (spans ++ [⟨stop, count⟩]) (stop + count) := by
  induction spans generalizing start with
  | nil => exact ⟨h.symm, rfl⟩
  | cons s spans ih => exact ⟨h.1, ih h.2⟩

namespace Table

variable {t t' : Table} {history : List TableExchange} {e : TableExchange} {col reserved chunk : Nat}
  {call : TableCall} {answer : TableAnswer}

theorem spansOf_concat (history : List TableExchange) (e : TableExchange) :
    spansOf (history ++ [e]) =
      if e.call.clears then [] else spansOf history ++ e.span?.toList := by
  rw [spansOf, List.foldl_append]
  rfl

theorem highWater_concat (col : Nat) (history : List TableExchange) (e : TableExchange) :
    highWater col (history ++ [e]) = max (highWater col history) (e.reach col) := by
  rw [highWater, List.foldl_append]
  rfl

theorem highWater_le_append (col : Nat) (history later : List TableExchange) :
    highWater col history ≤ highWater col (history ++ later) := by
  induction later generalizing history with
  | nil => exact (congrArg _ (List.append_nil _)).ge
  | cons e later ih =>
      rw [List.append_cons]
      refine Nat.le_trans ?_ (ih (history ++ [e]))
      rw [highWater_concat]
      exact Nat.le_max_left _ _

/-! ## The account of rows and commits -/

/-- What holds of a table with `size` columns after a history. -/
structure Ledger (size reserved chunk : Nat) (t : Table) (history : List TableExchange) :
    Prop where
  size : t.columns.size = size
  maxRows : t.maxRows = reserved
  spans : Adjoin 0 (spansOf history) t.numRows
  numRows_le : t.numRows ≤ reserved
  asked : ∀ col, t.numRows ≤ highWater col history
  column : ∀ (col : Nat) column, t.columns[col]? = some column →
    column.Marked (highWater col history) ∧ column.reservedRows = reserved ∧ column.chunk = chunk

namespace Ledger

variable {size : Nat}

theorem start {infos : List TypeInfo} {reserved chunk : UInt32}
    (h : Table.new infos reserved chunk = .ok t) :
    Ledger infos.length reserved.toNat (max chunk.toNat 1) t [] := by
  obtain ⟨hrows, hmax, hsize, hcolumns⟩ := new_cases h
  refine ⟨hsize, hmax, hrows.symm, hrows ▸ Nat.zero_le _, fun _ => hrows.le,
    fun col column hcolumn => ?_⟩
  obtain ⟨info, -, hnew⟩ := hcolumns col column hcolumn
  exact Column.marked_new hnew

/-- A call that takes no rows and forgets none. -/
theorem keep (h : Ledger size reserved chunk t history) (hrows : t'.numRows = t.numRows)
    (hmax : t'.maxRows = t.maxRows) (hsize : t'.columns.size = t.columns.size)
    (hclears : e.call.clears = false) (hspan : e.span? = none)
    (hcolumn : ∀ (col : Nat) column', t'.columns[col]? = some column' →
      ∃ column, t.columns[col]? = some column ∧ column'.reservedRows = column.reservedRows ∧
        column'.chunk = column.chunk ∧ ∀ most, column.Marked most →
          column'.Marked (max most (e.reach col))) :
    Ledger size reserved chunk t' (history ++ [e]) := by
  refine ⟨hsize.trans h.size, hmax.trans h.maxRows, ?_, hrows ▸ h.numRows_le, fun col => ?_,
    fun col column' hcolumn' => ?_⟩
  · rw [spansOf_concat, hclears, hspan, hrows]
    simpa using h.spans
  · rw [highWater_concat, hrows]
    exact (h.asked col).trans (Nat.le_max_left _ _)
  · obtain ⟨column, hold, hreserved, hchunk, hmarked⟩ := hcolumn col column' hcolumn'
    obtain ⟨hmark, hreserved', hchunk'⟩ := h.column col column hold
    rw [highWater_concat]
    exact ⟨hmarked _ hmark, hreserved.trans hreserved', hchunk.trans hchunk'⟩

/-- A call that leaves the table alone. -/
theorem idle (h : Ledger size reserved chunk t history) (hclears : e.call.clears = false)
    (hspan : e.span? = none) (hreach : ∀ col, e.reach col = 0) :
    Ledger size reserved chunk t (history ++ [e]) := by
  apply h.keep rfl rfl rfl hclears hspan
  intro col column hcolumn
  refine ⟨column, hcolumn, rfl, rfl, fun most hmark => ?_⟩
  rwa [hreach, Nat.max_zero]

/-- A call that stores to cells of a column. -/
theorem store (h : Ledger size reserved chunk t history) {column : Column} {cells : Memory}
    (hcolumn : t.columns[col]? = some column) (hclears : e.call.clears = false)
    (hspan : e.span? = none) (hreach : ∀ col, e.reach col = 0) :
    Ledger size reserved chunk (t.setColumn col { column with cells }) (history ++ [e]) := by
  refine h.keep rfl rfl (by simp [setColumn]) hclears hspan fun other column' hcolumn' => ?_
  rw [getElem?_setColumn hcolumn] at hcolumn'
  simp only [hreach, Nat.max_zero]
  split at hcolumn'
  · rename_i hother
    obtain rfl := Option.some.inj hcolumn'
    exact ⟨column, hother ▸ hcolumn, rfl, rfl, fun most hmark => hmark.setCells cells⟩
  · exact ⟨column', hcolumn', rfl, rfl, fun most hmark => hmark⟩

/-- A call that gets rows, for which every column grows. -/
theorem take (h : Ledger size reserved chunk t history) {count : Nat}
    (hroom : t.numRows + count ≤ reserved) (hclears : e.call.clears = false)
    (hspan : e.span? = some ⟨t.numRows, count⟩) (hreach : ∀ col, e.reach col = t.numRows + count) :
    Ledger size reserved chunk (t.take count) (history ++ [e]) := by
  refine ⟨(Array.size_map ..).trans h.size, h.maxRows, ?_, hroom, fun col => ?_,
    fun col column' hcolumn' => ?_⟩
  · rw [spansOf_concat, hspan, if_neg (by rw [hclears]; exact Bool.false_ne_true)]
    exact h.spans.concat count
  · rw [highWater_concat, hreach]
    exact Nat.le_max_right _ _
  · rw [getElem?_take] at hcolumn'
    obtain ⟨column, hcolumn, rfl⟩ := Option.map_eq_some_iff.1 hcolumn'
    obtain ⟨hmark, hreserved, hchunk⟩ := h.column col column hcolumn
    have hmarked := hmark.commit (t.numRows + count)
    rw [Column.granted, if_pos (hreserved ▸ hroom)] at hmarked
    rw [highWater_concat, hreach]
    refine ⟨hmarked, ?_, ?_⟩
    · rwa [hmark.getD_commit]
    · rwa [hmark.getD_commit]

/-- A clear gives back the rows and none of what is committed. -/
theorem clear (h : Ledger size reserved chunk t history) :
    Ledger size reserved chunk t.clear (history ++ [⟨.clear, .done true⟩]) := by
  refine ⟨h.size, h.maxRows, ?_, Nat.zero_le _, fun _ => Nat.zero_le _, fun col column hcolumn => ?_⟩
  · rw [spansOf_concat]
    rfl
  · have hmost : highWater col (history ++ [⟨.clear, .done true⟩]) = highWater col history := by
      rw [highWater_concat]
      exact Nat.max_zero _
    rw [hmost]
    exact h.column col column hcolumn

/-- A commit moves the mark of its own column. -/
theorem commit (h : Ledger size reserved chunk t history) {rows : Nat} {column column' : Column}
    (hcolumn : t.columns[col]? = some column) (hcommit : column.commit? rows = some column') :
    Ledger size reserved chunk (t.setColumn col column')
      (history ++ [⟨.commit col rows, .done true⟩]) := by
  refine h.keep rfl rfl (by simp [setColumn]) rfl rfl fun other new hnew => ?_
  rw [getElem?_setColumn hcolumn] at hnew
  split at hnew
  · rename_i hother
    subst hother
    obtain rfl := Option.some.inj hnew
    obtain ⟨hmark, -, -⟩ := h.column other column hcolumn
    have hgetD : (column.commit? rows).getD column = column' := by rw [hcommit, Option.getD_some]
    have hrows : rows ≤ column.reservedRows := by
      by_contra hover
      rw [Column.commit_eq_none (Nat.lt_of_not_le hover)] at hcommit
      contradiction
    refine ⟨column, hcolumn, ?_, ?_, fun most hmark => ?_⟩
    · rw [← hgetD, hmark.getD_commit]
    · rw [← hgetD, hmark.getD_commit]
    · have hmarked := hmark.commit rows
      rw [hgetD, Column.granted, if_pos hrows] at hmarked
      rwa [TableExchange.reach, if_pos rfl]
  · rename_i hother
    refine ⟨new, hnew, rfl, rfl, fun most hmark => ?_⟩
    rwa [TableExchange.reach, if_neg (Ne.symm hother), Nat.max_zero]

theorem step (h : Ledger size reserved chunk t history) (hcall : Performed t call answer t') :
    Ledger size reserved chunk t' (history ++ [⟨call, answer⟩]) := by
  cases hcall with
  | takes hcount hroom =>
      apply h.take (h.maxRows ▸ hroom)
      · cases call <;> first | rfl | contradiction
      · rw [TableExchange.span?, hcount]
        rfl
      · intro col
        rw [TableExchange.reach, hcount]
        rfl
  | full hcount hfull =>
      apply h.idle
      · cases call <;> first | rfl | contradiction
      · rfl
      · cases call <;> exact fun _ => rfl
  | clears => exact h.clear
  | commits hcolumn hcommit => exact h.commit hcolumn hcommit
  | sets hcolumn => exact h.store hcolumn rfl rfl fun _ => rfl
  | writes hcolumn => exact h.store hcolumn rfl rfl fun _ => rfl
  | @fills col value column hcolumn hholds =>
      obtain ⟨cells, hcells, -⟩ := Column.fill_eq hholds t.numRows
      rw [hcells]
      exact h.store hcolumn rfl rfl fun _ => rfl
  | misses hcount hclears => exact h.idle hclears rfl (by cases call <;> exact fun _ => rfl)
  | faults hcount hclears => exact h.idle hclears rfl (by cases call <;> exact fun _ => rfl)

theorem after (h : Ledger size reserved chunk t history) (calls : List TableCall) :
    Ledger size reserved chunk (t.after calls) (history ++ t.exchanges calls) := by
  induction calls generalizing t history with
  | nil =>
      rw [exchanges, List.append_nil]
      exact h
  | cons call calls ih =>
      rw [exchanges, List.append_cons]
      exact ih (h.step (t.performed call))

end Ledger

/-! ## Commits in any order -/

theorem eq_of_columns (hrows : t'.numRows = t.numRows) (hmax : t'.maxRows = t.maxRows)
    (hcolumns : ∀ col : Nat, t'.columns[col]? = t.columns[col]?) : t' = t := by
  obtain ⟨columns, numRows, maxRows⟩ := t
  obtain rfl : t'.columns = columns := Array.ext_getElem? hcolumns
  obtain rfl := hrows
  obtain rfl := hmax
  rfl

theorem columns_commit (t : Table) (col rows : Nat) :
    (t.perform (.commit col rows)).2.numRows = t.numRows ∧
      (t.perform (.commit col rows)).2.maxRows = t.maxRows ∧
      ∀ other : Nat, (t.perform (.commit col rows)).2.columns[other]? =
        if other = col then (t.columns[other]?).map fun c => (c.commit? rows).getD c
        else t.columns[other]? := by
  have hkept : (t.columns[col]?).map (fun c => (c.commit? rows).getD c) = t.columns[col]? →
      ∀ other : Nat, t.columns[other]? =
        if other = col then (t.columns[other]?).map fun c => (c.commit? rows).getD c
        else t.columns[other]? := by
    intro hsame other
    split
    · rename_i hother
      rw [hother, hsame]
    · rfl
  cases hcolumn : t.columns[col]? with
  | none =>
      rw [perform_commit_missing hcolumn]
      exact ⟨rfl, rfl, hkept (by rw [hcolumn, Option.map_none])⟩
  | some column =>
      rw [perform_commit hcolumn]
      cases hcommit : column.commit? rows with
      | none => exact ⟨rfl, rfl, hkept (by rw [hcolumn, Option.map_some, hcommit, Option.getD_none])⟩
      | some column' =>
          refine ⟨rfl, rfl, fun other => (getElem?_setColumn hcolumn other).trans ?_⟩
          split
          · rename_i hother
            rw [hother, hcolumn, Option.map_some, hcommit, Option.getD_some]
          · rfl

theorem Ledger.commit_comm {size : Nat} (h : Ledger size reserved chunk t history)
    (col rows col' rows' : Nat) :
    ((t.perform (.commit col rows)).2.perform (.commit col' rows')).2 =
      ((t.perform (.commit col' rows')).2.perform (.commit col rows)).2 := by
  obtain ⟨hrows, hmax, hcolumns⟩ := t.columns_commit col rows
  obtain ⟨hrows', hmax', hcolumns'⟩ := t.columns_commit col' rows'
  obtain ⟨hrows₁, hmax₁, hcolumns₁⟩ := (t.perform (.commit col rows)).2.columns_commit col' rows'
  obtain ⟨hrows₂, hmax₂, hcolumns₂⟩ := (t.perform (.commit col' rows')).2.columns_commit col rows
  apply eq_of_columns
  · rw [hrows₁, hrows, hrows₂, hrows']
  · rw [hmax₁, hmax, hmax₂, hmax']
  intro other
  rw [hcolumns₁, hcolumns₂, hcolumns, hcolumns']
  by_cases hcol : other = col <;> by_cases hcol' : other = col'
  · cases hcolumn : t.columns[other]? with
    | none => simp
    | some column =>
        have hmark := (h.column other column hcolumn).1
        simp only [if_pos hcol, if_pos hcol', Option.map_some]
        exact congrArg some (hmark.commit_comm rows' rows)
  · simp only [if_pos hcol, if_neg hcol']
  · simp only [if_neg hcol, if_pos hcol']
  · simp only [if_neg hcol, if_neg hcol']

/-- Rows of a column are committed alike in whatever order they are asked for. -/
theorem Ledger.after_perm {size : Nat} (h : Ledger size reserved chunk t history)
    {commits commits' : List TableCall} (hperm : commits.Perm commits')
    (hall : ∀ call ∈ commits, call.commits = true) : t.after commits = t.after commits' := by
  induction hperm generalizing t history with
  | nil => rfl
  | cons call _ ih =>
      exact ih (h.step (t.performed call)) fun call hcall => hall call (List.mem_cons_of_mem _ hcall)
  | swap call call' rest =>
      have hcall := hall call (List.mem_cons_of_mem _ (List.mem_cons_self ..))
      have hcall' := hall call' (List.mem_cons_self ..)
      cases call with
      | commit col rows =>
          cases call' with
          | commit col' rows' => exact congrArg (Table.after · rest) (h.commit_comm ..)
          | _ => contradiction
      | _ => contradiction
  | trans hperm _ ih ih' =>
      exact (ih h hall).trans (ih' h fun call hcall => hall call (hperm.mem_iff.2 hcall))

/-- Taking rows anew asks for no more of a column than the rows taken together. -/
theorem Ledger.highWater_taken {size : Nat} (h : Ledger size reserved chunk t history) (col : Nat)
    (counts : List Nat) : highWater col (history ++ t.exchanges (counts.map .allocRows)) ≤
      max (highWater col history) (t.numRows + counts.sum) := by
  induction counts generalizing t history with
  | nil =>
      rw [List.map_nil, exchanges, List.append_nil]
      exact Nat.le_max_left _ _
  | cons count counts ih =>
      have hlater := ih (h.step (t.performed (.allocRows count)))
      rw [List.map_cons, exchanges, List.append_cons, List.sum_cons]
      rw [highWater_concat] at hlater
      have hhere : TableExchange.reach col ⟨.allocRows count, (t.perform (.allocRows count)).1⟩ ≤
            t.numRows + count ∧
          (t.perform (.allocRows count)).2.numRows ≤ t.numRows + count := by
        rw [perform_of_count rfl]
        split
        · exact ⟨Nat.zero_le _, Nat.le_add_right _ _⟩
        · exact ⟨Nat.le_refl _, Nat.le_refl _⟩
      omega

/-- Whatever is asked of a new table, its rows in use are those of the spans taken since it was
last cleared, one span behind the other.  More rows are given out exactly as long as they fit the
reservation.  The commit mark of each column is a function of the reservation, of the chunk, and
of the most rows ever asked of it; it covers the rows in use, stays within the reservation, never
falls, and does not depend on the order of commits.  Rows taken again after a clear commit
nothing. -/
theorem rows_and_commits {infos : List TypeInfo} {reserved chunk : UInt32} {t₀ : Table}
    (hnew : Table.new infos reserved chunk = .ok t₀) (calls : List TableCall) :
    let t := t₀.after calls
    let history := t₀.exchanges calls
    Adjoin 0 (spansOf history) t.numRows ∧ t.numRows ≤ reserved.toNat ∧
    (∀ call count, call.count? = some count →
      (reserved.toNat < t.numRows + count →
        t.perform call = (.refused (.tableFull reserved.toNat), t)) ∧
      (t.numRows + count ≤ reserved.toNat → (t.perform call).1 = .rows t.numRows ∧
        (t.perform call).2.numRows = t.numRows + count)) ∧
    t.columns.size = infos.length ∧
    (∀ (col : Nat) column, t.columns[col]? = some column →
      column.committedRows =
        committedFor reserved.toNat (max chunk.toNat 1) (highWater col history) ∧
      t.numRows ≤ column.committedRows ∧ column.committedRows ≤ reserved.toNat) ∧
    (∀ (col : Nat) rows, col < infos.length →
      (t.perform (.commit col rows)).1 = .done (decide (rows ≤ reserved.toNat))) ∧
    (∀ call (col : Nat) column, t.columns[col]? = some column →
      ∃ column', (t.perform call).2.columns[col]? = some column' ∧
        column.committedRows ≤ column'.committedRows) ∧
    (∀ commits commits' : List TableCall, commits.Perm commits' →
      (∀ call ∈ commits, call.commits = true) → t.after commits = t.after commits') ∧
    ∀ (counts : List Nat) (col : Nat) column, t.columns[col]? = some column →
      counts.sum ≤ highWater col history →
      ∃ column', (t.clear.after (counts.map .allocRows)).columns[col]? = some column' ∧
        column'.committedRows = column.committedRows := by
  intro t history
  have h : Ledger infos.length reserved.toNat (max chunk.toNat 1) t history :=
    (Ledger.start hnew).after calls
  have hpos : 0 < max chunk.toNat 1 := Nat.lt_of_lt_of_le Nat.one_pos (Nat.le_max_right _ _)
  have hmark : ∀ {t' history'}, Ledger infos.length reserved.toNat (max chunk.toNat 1) t' history' →
      ∀ (col : Nat) column, t'.columns[col]? = some column → column.committedRows =
        committedFor reserved.toNat (max chunk.toNat 1) (highWater col history') := by
    intro t' history' h' col column hcolumn
    obtain ⟨hmarked, hreserved, hchunk⟩ := h'.column col column hcolumn
    rw [hmarked.committedRows, hreserved, hchunk]
  have hexists : ∀ {t' history'},
      Ledger infos.length reserved.toNat (max chunk.toNat 1) t' history' →
      ∀ {col : Nat} {column}, t.columns[col]? = some column →
        ∃ column', t'.columns[col]? = some column' := by
    intro t' history' h' col column hcolumn
    obtain ⟨hlt, -⟩ := Array.getElem?_eq_some_iff.1 hcolumn
    have hlt : col < t'.columns.size := by rwa [h'.size, ← h.size]
    exact ⟨t'.columns[col], Array.getElem?_eq_getElem hlt⟩
  refine ⟨h.spans, h.numRows_le, fun call count hcount => ?_, h.size, fun col column hcolumn => ?_,
    fun col rows hcol => ?_, fun call col column hcolumn => ?_,
    fun commits commits' hperm hall => h.after_perm hperm hall,
    fun counts col column hcolumn hsum => ?_⟩
  · rw [perform_of_count hcount, h.maxRows]
    refine ⟨fun hfull => if_pos hfull, fun hroom => ?_⟩
    rw [if_neg hroom.not_gt]
    exact ⟨rfl, rfl⟩
  · have hcommitted := hmark h col column hcolumn
    refine ⟨hcommitted, ?_, ?_⟩
    · rw [hcommitted]
      exact (le_committedFor hpos h.numRows_le).trans (committedFor_mono _ _ (h.asked col))
    · rw [hcommitted]
      exact committedFor_le _ _ _
  · have hlt : col < t.columns.size := h.size.symm ▸ hcol
    have hcolumn : t.columns[col]? = some t.columns[col] := Array.getElem?_eq_getElem hlt
    obtain ⟨hmarked, hreserved, -⟩ := h.column col _ hcolumn
    rw [perform_commit hcolumn]
    by_cases hrows : rows ≤ reserved.toNat
    · rw [hmarked.commit_eq (hreserved ▸ hrows), decide_eq_true hrows]
      rfl
    · rw [Column.commit_eq_none (hreserved.symm ▸ Nat.lt_of_not_le hrows), decide_eq_false hrows]
      rfl
  · have hnext := h.step (t.performed call)
    obtain ⟨column', hcolumn'⟩ := hexists hnext hcolumn
    refine ⟨column', hcolumn', ?_⟩
    rw [hmark h col column hcolumn, hmark hnext col column' hcolumn', highWater_concat]
    exact committedFor_mono _ _ (Nat.le_max_left _ _)
  · have hclear : Ledger infos.length reserved.toNat (max chunk.toNat 1) t.clear
        (history ++ [⟨.clear, .done true⟩]) := h.step (t.performed .clear)
    have hafter := hclear.after (counts.map .allocRows)
    have hsame : highWater col (history ++ [⟨.clear, .done true⟩] ++
        t.clear.exchanges (counts.map .allocRows)) = highWater col history := by
      have hclearing : highWater col (history ++ [⟨.clear, .done true⟩]) = highWater col history := by
        rw [highWater_concat]
        exact Nat.max_zero _
      apply Nat.le_antisymm
      · apply (hclear.highWater_taken col counts).trans
        rw [hclearing]
        exact Nat.max_le.2 ⟨Nat.le_refl _, (Nat.zero_add _).trans_le hsum⟩
      · rw [← hclearing]
        exact highWater_le_append _ _ _
    obtain ⟨column', hcolumn'⟩ := hexists hafter hcolumn
    refine ⟨column', hcolumn', ?_⟩
    rw [hmark h col column hcolumn, hmark hafter col column' hcolumn', hsame]

namespace Rows

def infos : List TypeInfo := [⟨4, 4⟩, ⟨8, 16⟩]

def made : Table := ⟨(infos.map fun info => ⟨info, 10, 4, 4, .zeroed⟩).toArray, 0, 10⟩

theorem new_infos : Table.new infos 10 4 = .ok made := rfl

def calls : List TableCall :=
  [.allocRows 3, .commit 1 6, .allocRow, .allocRows 7, .clear, .commit 1 11, .allocRows 2, .allocRow]

end Rows

open Rows in
theorem rows_and_commits_sample :
    let t := made.after calls
    t.numRows = 3 ∧ spansOf (made.exchanges calls) = [⟨0, 2⟩, ⟨2, 1⟩] ∧
      (∃ column, t.columns[0]? = some column ∧ column.committedRows = 4) ∧
      (∃ column, t.columns[1]? = some column ∧ column.committedRows = 8) ∧
      t.perform (.allocRows 8) = (.refused (.tableFull 10), t) := by
  intro t
  obtain ⟨-, -, halloc, hsize, hcommitted, -⟩ := rows_and_commits new_infos calls
  have hrows : t.numRows = 3 := by decide +kernel
  have hlt : 1 < t.columns.size := hsize.symm ▸ Nat.lt_succ_self 1
  have hfirst : t.columns[0]? = some t.columns[0] := Array.getElem?_eq_getElem _
  have hsecond : t.columns[1]? = some t.columns[1] := Array.getElem?_eq_getElem hlt
  refine ⟨hrows, by decide +kernel, ⟨_, hfirst, ?_⟩, ⟨_, hsecond, ?_⟩, ?_⟩
  · exact (hcommitted 0 _ hfirst).1.trans (by decide +kernel)
  · exact (hcommitted 1 _ hsecond).1.trans (by decide +kernel)
  · exact (halloc (.allocRows 8) 8 rfl).1 (by rw [hrows]; decide)

end Table
end Lockstep
