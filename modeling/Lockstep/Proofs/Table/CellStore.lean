import Lockstep.Proofs.Word
import Lockstep.Proofs.Table.Steps

/-!
# A table as a store of cells

What a table keeps is a map from columns and rows to bytes.  All that it hands out can be read off
that map, and the map off the calls that stored something.
-/

namespace Lockstep

namespace CellStore

variable (s : CellStore) (size col row : Nat) (bytes : List UInt8)

theorem bytes_put (col' row' : Nat) : (s.put col row bytes).bytes size col' row' =
    if col' = col ∧ row' = row then bytes else s.bytes size col' row' := by
  unfold CellStore.bytes put
  dsimp only
  split <;> rfl

theorem bytes_putAll (col' row' : Nat) : (s.putAll col bytes).bytes size col' row' =
    if col' = col ∧ row' < s.rows then bytes else s.bytes size col' row' := by
  unfold CellStore.bytes putAll
  dsimp only
  split <;> rfl

theorem of_concat (history : List TableExchange) (e : TableExchange) :
    of (history ++ [e]) = (of history).next e := by
  rw [of, List.foldl_append]
  rfl

end CellStore

namespace Column

variable {c c' : Column} {info : TypeInfo}

/-- The columns that a table of so many rows can have. -/
def IsMade (c : Column) (reserved : UInt32) : Prop :=
  ∃ chunk made, Column.new c.info reserved chunk = .ok made

theorem rowOffset_add_le {row : Nat} (h : row < c.reservedRows) :
    c.rowOffset row + c.info.size ≤ c.reservedRows * c.info.size := by
  rw [rowOffset, ← Nat.succ_mul]
  exact Nat.mul_le_mul_right _ h

theorem dvd_rowOffset (hholds : c.holds info = true) (hsize : info.alignment.toNat ∣ info.size)
    (row : Nat) : info.alignment.toNat ∣ c.rowOffset row := by
  rw [rowOffset, ← size_of_holds hholds]
  exact Dvd.dvd.mul_left hsize row

/-- Where bytes are reserved, they start at a multiple of the alignment of every type that fits. -/
theorem IsMade.dvd_alignment {reserved : UInt32} (h : c.IsMade reserved)
    (hbytes : 0 < c.info.size * reserved.toNat) (hholds : c.holds info = true)
    (hvalid : info.isValid = true) : info.alignment.toNat ∣ c.info.alignment.toNat := by
  obtain ⟨chunk, made, hmade⟩ := h
  have hpower : Word.isPowerOfTwo c.info.alignment.toNat = true := by
    unfold Column.new at hmade
    dsimp only at hmade
    rw [if_neg hbytes.ne'] at hmade
    split at hmade
    · rename_i hfits
      exact (Bool.and_eq_true _ _ ▸ hfits).1
    · contradiction
  have hle : info.alignment ≤ c.info.alignment := by
    simp only [holds, Bool.and_eq_true, decide_eq_true_eq] at hholds
    exact hholds.2
  exact Word.dvd_of_isPowerOfTwo hvalid hpower (UInt32.le_iff_toNat_le.1 hle)

end Column

namespace Table

variable {t t' : Table} {store : CellStore} {history : List TableExchange} {call : TableCall}
  {answer : TableAnswer} {col row : Nat} {info : TypeInfo} {reserved : UInt32}

theorem columnValues_ok {column : Column} (h : t.columns[col]? = some column)
    (hholds : column.holds info = true) :
    t.columnValues col info = .ok ((List.range t.numRows).map (column.cell · info)) := by
  simp [columnValues, typedColumn_ok h hholds, bind, Except.bind, pure, Except.pure]

theorem get_of_le (h : t.numRows ≤ row) (col : Nat) (info : TypeInfo) :
    t.get col row info = .ok none :=
  if_pos h

/-- A cell is read alike in two tables in which it has the same bytes. -/
theorem get_congr (hrows : t'.numRows = t.numRows) (hsize : t'.columns.size = t.columns.size)
    (hcolumn : ∀ column, t.columns[col]? = some column → ∃ column', t'.columns[col]? = some column' ∧
      column'.info = column.info ∧ column'.bytesAt row = column.bytesAt row) (info : TypeInfo) :
    t'.get col row info = t.get col row info := by
  rw [get, get, hrows]
  split
  · rfl
  cases hold : t.columns[col]? with
  | none =>
      have hnew : t'.columns[col]? = none := by
        rw [Array.getElem?_eq_none_iff, hsize]
        exact Array.getElem?_eq_none_iff.1 hold
      simp [typedColumn, Table.column, hold, hnew, hsize, bind, Except.bind]
  | some column =>
      obtain ⟨column', hnew, hinfo, hbytes⟩ := hcolumn column hold
      have hsame : column'.holds info = column.holds info := by
        rw [Column.holds, hinfo, ← Column.holds]
      by_cases hholds : column.holds info = true
      · rw [typedColumn_ok hold hholds, typedColumn_ok hnew (hsame.trans hholds)]
        have hcell : column'.cell row info = column.cell row info := by
          apply Value.eq_of_bytes
          · rfl
          · rw [Column.bytes_cell hholds, Column.bytes_cell (hsame.trans hholds), hbytes]
        exact congrArg (fun value => Except.ok (some value)) hcell
      · simp [typedColumn, Table.column, hold, hnew, hsame, hholds, bind, Except.bind]

/-- A table whose cells are those of a map. -/
structure Keeps (t : Table) (reserved : UInt32) (store : CellStore) : Prop where
  rows : store.rows = t.numRows
  maxRows : t.maxRows = reserved.toNat
  numRows_le : t.numRows ≤ t.maxRows
  column : ∀ (col : Nat) column, t.columns[col]? = some column →
    column.reservedRows = reserved.toNat ∧ column.IsMade reserved ∧
      ∀ row, column.bytesAt row = store.bytes column.info.size col row

namespace Keeps

theorem start {infos : List TypeInfo} {chunk : UInt32}
    (h : Table.new infos reserved chunk = .ok t) : t.Keeps reserved .empty := by
  obtain ⟨hrows, hmax, -, hcolumns⟩ := new_cases h
  refine ⟨hrows.symm, hmax, hrows ▸ Nat.zero_le _, fun col column hcolumn => ?_⟩
  obtain ⟨info, -, hnew⟩ := hcolumns col column hcolumn
  obtain ⟨rfl, hreserved, hcells⟩ := Column.new_eq hnew
  refine ⟨hreserved, ⟨chunk, column, hnew⟩, fun row => ?_⟩
  apply List.eq_replicate_iff.2
  rw [Column.bytesAt, hcells]
  exact ⟨Memory.length_read _ _ _, Memory.read_zeroed _ _⟩

/-- A call that leaves the cells alone. -/
theorem keep (h : t.Keeps reserved store) (hrows : store.rows = t'.numRows)
    (hmax : t'.maxRows = t.maxRows) (hle : t'.numRows ≤ t.maxRows)
    (hcolumn : ∀ (col : Nat) column', t'.columns[col]? = some column' →
      ∃ column committedRows, t.columns[col]? = some column ∧
        column' = { column with committedRows }) : t'.Keeps reserved store := by
  refine ⟨hrows, hmax.trans h.maxRows, hmax.symm ▸ hle, fun col column' hcolumn' => ?_⟩
  obtain ⟨column, committedRows, hold, rfl⟩ := hcolumn col column' hcolumn'
  exact h.column col column hold

/-- A call that stores to a column. -/
theorem setCells {column : Column} {cells : Memory} {store' : CellStore}
    (h : t.Keeps reserved store) (hcolumn : t.columns[col]? = some column)
    (hrows : store'.rows = store.rows)
    (hbytes : ∀ row, Column.bytesAt { column with cells } row =
      store'.bytes column.info.size col row)
    (hother : ∀ size col' row, col' ≠ col → store'.bytes size col' row = store.bytes size col' row) :
    (t.setColumn col { column with cells }).Keeps reserved store' := by
  refine ⟨hrows.trans h.rows, h.maxRows, h.numRows_le, fun col' column' hcolumn' => ?_⟩
  rw [getElem?_setColumn hcolumn] at hcolumn'
  split at hcolumn'
  · rename_i hcol
    subst hcol
    obtain rfl := Option.some.inj hcolumn'
    obtain ⟨hreserved, hmade, -⟩ := h.column col' column hcolumn
    exact ⟨hreserved, hmade, hbytes⟩
  · rename_i hcol
    obtain ⟨hreserved, hmade, hold⟩ := h.column col' column' hcolumn'
    exact ⟨hreserved, hmade, fun row => (hold row).trans (hother _ col' row hcol).symm⟩

theorem put {column : Column} {value : Value} (h : t.Keeps reserved store)
    (hcolumn : t.columns[col]? = some column) (hholds : column.holds value.info = true) (row : Nat) :
    (t.setColumn col (column.setCell row value)).Keeps reserved (store.put col row value.bytes) := by
  refine h.setCells hcolumn rfl (fun row' => ?_) fun size col' row' hcol => ?_
  · rw [CellStore.bytes_put, ← (h.column col column hcolumn).2.2]
    refine (Column.bytesAt_setCell hholds row row').trans ?_
    simp only [true_and]
  · rw [CellStore.bytes_put, if_neg fun hboth => hcol hboth.1]

theorem putAll {column : Column} {value : Value} (h : t.Keeps reserved store)
    (hcolumn : t.columns[col]? = some column) (hholds : column.holds value.info = true) :
    (t.setColumn col (column.fill value t.numRows)).Keeps reserved
      (store.putAll col value.bytes) := by
  obtain ⟨cells, hcells, hbytes⟩ := Column.fill_eq hholds t.numRows
  rw [hcells]
  refine h.setCells hcolumn rfl (fun row => ?_) fun size col' row' hcol => ?_
  · rw [hbytes, CellStore.bytes_putAll, h.rows, (h.column col column hcolumn).2.2]
    simp only [true_and]
  · rw [CellStore.bytes_putAll, if_neg fun hboth => hcol hboth.1]

theorem step (h : t.Keeps reserved store) (hcall : Performed t call answer t') :
    t'.Keeps reserved (store.next ⟨call, answer⟩) := by
  cases hcall with
  | @takes _ count hcount hroom =>
      have hnext : store.next ⟨call, .rows t.numRows⟩ =
          { store with rows := t.numRows + count } := by
        cases call <;> simp_all [CellStore.next]
      rw [hnext]
      refine ⟨rfl, h.maxRows, hroom, fun col column' hcolumn' => ?_⟩
      rw [getElem?_take] at hcolumn'
      obtain ⟨column, hcolumn, rfl⟩ := Option.map_eq_some_iff.1 hcolumn'
      obtain ⟨committedRows, hcommit⟩ := column.commit_eq (t.numRows + count)
      rw [hcommit]
      exact h.column col column hcolumn
  | full hcount hfull =>
      have hnext : store.next ⟨call, .refused (.tableFull t.maxRows)⟩ = store := by
        cases call <;> first | rfl | contradiction
      rw [hnext]
      exact h
  | clears => exact ⟨rfl, h.maxRows, Nat.zero_le _, h.column⟩
  | @commits col rows column column' hcolumn hcommit =>
      obtain ⟨committedRows, hmark⟩ := column.commit_eq rows
      rw [hcommit, Option.getD_some] at hmark
      rw [hmark]
      exact h.keep h.rows rfl h.numRows_le fun other new hnew => by
        rw [getElem?_setColumn hcolumn] at hnew
        split at hnew
        · rename_i hother
          exact ⟨column, committedRows, hother ▸ hcolumn, (Option.some.inj hnew).symm⟩
        · exact ⟨new, new.committedRows, hnew, rfl⟩
  | sets hcolumn hholds => exact h.put hcolumn hholds _
  | writes hcolumn hholds => exact h.put hcolumn hholds _
  | fills hcolumn hholds => exact h.putAll hcolumn hholds
  | misses hcount hclears =>
      have hnext : store.next ⟨call, .done false⟩ = store := by
        cases call <;> first | rfl | contradiction
      rw [hnext]
      exact h
  | @faults _ fault hcount hclears =>
      have hnext : store.next ⟨call, .faulted fault⟩ = store := by
        cases call <;> first | rfl | contradiction
      rw [hnext]
      exact h

theorem after (h : t.Keeps reserved (.of history)) (calls : List TableCall) :
    (t.after calls).Keeps reserved (.of (history ++ t.exchanges calls)) := by
  induction calls generalizing t history with
  | nil =>
      rw [exchanges, List.append_nil]
      exact h
  | cons call calls ih =>
      rw [exchanges, List.append_cons]
      apply ih
      rw [CellStore.of_concat]
      exact h.step (t.performed call)

end Keeps

/-! ## Stores -/

/-- A change to a column is seen in the cells that have other bytes than before. -/
theorem get_setColumn {column column' : Column} (hcolumn : t.columns[col]? = some column)
    (hinfo : column'.info = column.info) {col' row' : Nat}
    (hbytes : col' = col → column'.bytesAt row' = column.bytesAt row') (info : TypeInfo) :
    (t.setColumn col column').get col' row' info = t.get col' row' info := by
  apply get_congr
  · rfl
  · simp [setColumn]
  · intro old hold
    rw [getElem?_setColumn hcolumn]
    by_cases hcol : col' = col
    · rw [if_pos hcol]
      obtain rfl := Option.some.inj ((hcol ▸ hold).symm.trans hcolumn)
      exact ⟨column', rfl, hinfo, hbytes hcol⟩
    · rw [if_neg hcol]
      exact ⟨old, hold, rfl, rfl⟩

theorem get_setCell {column : Column} {value : Value} (hcolumn : t.columns[col]? = some column)
    (hholds : column.holds value.info = true) (row : Nat) {col' row' : Nat}
    (hother : ¬ (col' = col ∧ row' = row)) (info : TypeInfo) :
    (t.setColumn col (column.setCell row value)).get col' row' info = t.get col' row' info := by
  have hinfo : (column.setCell row value).info = column.info := rfl
  apply get_setColumn hcolumn hinfo
  intro hcol
  rw [Column.bytesAt_setCell hholds, if_neg fun hrow => hother ⟨hcol, hrow⟩]

/-- A table stores what it is given.  What a live row reads back as, by any type that fits the
column, are the bytes last stored in that cell, or zero if none were; all live rows of a column
read back together as they do one by one.  A value that fits is stored in every live row, and in
any row that is reserved; a store is not seen in another cell.  Rows that are not in use answer
nothing and take nothing.  The cells of a column lie one behind the other in the bytes that are
reserved for it, at multiples of the alignment of every type that fits. -/
theorem faithful_cells {infos : List TypeInfo} {reserved chunk : UInt32} {t₀ : Table}
    (hnew : Table.new infos reserved chunk = .ok t₀) (calls : List TableCall) :
    let t := t₀.after calls
    let store := CellStore.of (t₀.exchanges calls)
    store.rows = t.numRows ∧
    (∀ (col : Nat) column info, t.columns[col]? = some column → column.holds info = true →
      (∀ row < t.numRows, ∃ value, t.get col row info = .ok (some value) ∧ value.info = info ∧
        value.bytes = store.bytes info.size col row) ∧
      ∃ values, t.columnValues col info = .ok values ∧ values.length = t.numRows ∧
        ∀ row < t.numRows, t.get col row info = .ok values[row]?) ∧
    (∀ (col : Nat) column value, t.columns[col]? = some column → column.holds value.info = true →
      (∀ row < t.numRows, ∃ t', t.perform (.set col row value) = (.done true, t') ∧
        ∀ col' row' info, ¬ (col' = col ∧ row' = row) →
          t'.get col' row' info = t.get col' row' info) ∧
      (∀ row < reserved.toNat, ∃ t', t.perform (.write col row value) = (.done true, t') ∧
        ∀ col' row' info, ¬ (col' = col ∧ row' = row) →
          t'.get col' row' info = t.get col' row' info) ∧
      ∃ t', t.perform (.fill col value) = (.done true, t') ∧
        ∀ col' row' info, col' ≠ col → t'.get col' row' info = t.get col' row' info) ∧
    (∀ col row info, t.numRows ≤ row → t.get col row info = .ok none ∧
      ∀ value, t.perform (.set col row value) = (.done false, t)) ∧
    ∀ (col : Nat) column, t.columns[col]? = some column → ∀ row < reserved.toNat,
      column.rowOffset row + column.info.size ≤ reserved.toNat * column.info.size ∧
      ∀ info, column.holds info = true → info.isValid = true →
        info.alignment.toNat ∣ info.size → info.alignment.toNat ∣ column.rowOffset row ∧
          (0 < reserved.toNat * column.info.size →
            ∀ base, column.info.alignment.toNat ∣ base →
              info.alignment.toNat ∣ base + column.rowOffset row) := by
  intro t store
  have hstart : t₀.Keeps reserved (.of []) := .start hnew
  have h : t.Keeps reserved store := hstart.after calls
  have hreserved : ∀ {col : Nat} {column}, t.columns[col]? = some column →
      column.reservedRows = reserved.toNat := fun hcolumn => (h.column _ _ hcolumn).1
  have hlive : ∀ {row}, row < t.numRows → row < reserved.toNat :=
    fun hrow => hrow.trans_le (h.maxRows ▸ h.numRows_le)
  refine ⟨h.rows, fun col column info hcolumn hholds => ⟨fun row hrow => ?_, ?_⟩,
    fun col column value hcolumn hholds => ⟨fun row hrow => ?_, fun row hrow => ?_, ?_⟩,
    fun col row info hrow => ⟨get_of_le hrow col info, fun value => perform_set_of_le hrow col value⟩,
    fun col column hcolumn row hrow => ⟨?_, fun info hholds hvalid hsize => ⟨?_, ?_⟩⟩⟩
  · refine ⟨_, get_ok hrow hcolumn hholds, rfl, ?_⟩
    rw [Column.bytes_cell hholds, (h.column col column hcolumn).2.2, Column.size_of_holds hholds]
  · refine ⟨_, columnValues_ok hcolumn hholds, by simp, fun row hrow => ?_⟩
    rw [get_ok hrow hcolumn hholds]
    simp [hrow]
  · have hwrite := perform_write hcolumn hholds (hreserved hcolumn ▸ hlive hrow)
    exact ⟨_, (perform_set hrow col value).trans hwrite,
      fun col' row' info hother => get_setCell hcolumn hholds row hother info⟩
  · exact ⟨_, perform_write hcolumn hholds (hreserved hcolumn ▸ hrow),
      fun col' row' info hother => get_setCell hcolumn hholds row hother info⟩
  · obtain ⟨cells, hcells, -⟩ := Column.fill_eq hholds t.numRows
    refine ⟨_, perform_fill hcolumn hholds, fun col' row' info hother => ?_⟩
    have hinfo : Column.info { column with cells } = column.info := rfl
    rw [hcells]
    exact get_setColumn hcolumn hinfo (fun hcol => absurd hcol hother) info
  · have hfits := Column.rowOffset_add_le (hreserved hcolumn ▸ hrow)
    rwa [hreserved hcolumn] at hfits
  · exact Column.dvd_rowOffset hholds hsize row
  · intro hbytes base hbase
    have hmade := (h.column col column hcolumn).2.1
    have hdvd := hmade.dvd_alignment (Nat.mul_comm .. ▸ hbytes) hholds hvalid
    exact Nat.dvd_add (hdvd.trans hbase) (Column.dvd_rowOffset hholds hsize row)

namespace Cells

def infos : List TypeInfo := [⟨4, 4⟩, ⟨8, 8⟩, ⟨2, 0⟩]

def made : Table := ⟨(infos.map fun info => ⟨info, 8, 2, 2, .zeroed⟩).toArray, 0, 8⟩

theorem new_infos : Table.new infos 8 2 = .ok made := rfl

def word : Value := ⟨⟨4, 4⟩, [1, 2, 3, 4], rfl⟩

def pair : Value := ⟨⟨4, 8⟩, [5, 6, 7, 8, 9, 10, 11, 12], rfl⟩

/-- The second row of the first column goes out of use and comes back. -/
def calls : List TableCall :=
  [.allocRows 2, .set 0 1 word, .fill 1 pair, .clear, .set 0 0 word, .allocRow, .write 0 3 word,
    .allocRows 2]

end Cells

open Cells in
theorem faithful_cells_sample :
    let t := made.after calls
    (∃ value, t.get 0 1 ⟨2, 4⟩ = .ok (some value) ∧ value.bytes = [1, 2, 3, 4]) ∧
      (∃ value, t.get 0 2 ⟨4, 4⟩ = .ok (some value) ∧ value.bytes = [0, 0, 0, 0]) ∧
      (∃ value, t.get 1 0 ⟨8, 8⟩ = .ok (some value) ∧
        value.bytes = [5, 6, 7, 8, 9, 10, 11, 12]) ∧
      t.get 0 3 ⟨4, 4⟩ = .ok none := by
  intro t
  obtain ⟨-, hreads, -, hunused, -⟩ := faithful_cells new_infos calls
  have hrows : t.numRows = 3 := by decide +kernel
  have hread : ∀ (col row : Nat) (info : TypeInfo) (bytes : List UInt8),
      ((t.columns[col]?).any (·.holds info)) = true → row < 3 →
      (CellStore.of (made.exchanges calls)).bytes info.size col row = bytes →
      ∃ value, t.get col row info = .ok (some value) ∧ value.bytes = bytes := by
    intro col row info bytes hholds hrow hbytes
    obtain ⟨column, hcolumn, hholds⟩ := (Option.any_eq_true _ _).1 hholds
    obtain ⟨hlive, -⟩ := hreads col column info hcolumn hholds
    obtain ⟨value, hget, -, hvalue⟩ := hlive row (hrows.symm ▸ hrow)
    exact ⟨value, hget, hvalue.trans hbytes⟩
  refine ⟨hread 0 1 _ _ ?_ ?_ ?_, hread 0 2 _ _ ?_ ?_ ?_, hread 1 0 _ _ ?_ ?_ ?_,
    (hunused 0 3 _ hrows.le).1⟩
  all_goals decide +kernel

end Table
end Lockstep
