import Lockstep.Proofs.Storage.Cells
import Lockstep.Table.History

/-!
# Steps of a table

All that a single call can do to a table.
-/

namespace Lockstep

/-- Filling a column writes the value to each of the first rows. -/
theorem Column.fill_eq {c : Column} {value : Value} (h : c.holds value.info = true) (rows : Nat) :
    ∃ cells, c.fill value rows = { c with cells } ∧ ∀ row,
      Column.bytesAt { c with cells } row = if row < rows then value.bytes else c.bytesAt row := by
  unfold fill
  split
  · rename_i hempty
    refine ⟨c.cells, rfl, fun row => ?_⟩
    have hvalue : value.bytes = [] := List.eq_nil_of_length_eq_zero (value.length_bytes.trans hempty)
    have hcell : c.bytesAt row = [] := by
      rw [bytesAt, ← size_of_holds h, hempty]
      rfl
    rw [hvalue, hcell, ite_self]
  · induction rows with
    | zero => exact ⟨c.cells, rfl, fun row => (if_neg (Nat.not_lt_zero row)).symm⟩
    | succ rows ih =>
        obtain ⟨cells, hcells, hbytes⟩ := ih
        have hholds : Column.holds { c with cells } value.info = true := h
        refine ⟨_, ?_, fun row => (Column.bytesAt_setCell hholds rows row).trans ?_⟩
        · rw [Nat.fold_succ, hcells]
          rfl
        · rw [hbytes]
          by_cases hrow : row = rows
          · rw [if_pos hrow, if_pos (by omega)]
          · rw [if_neg hrow]
            by_cases hlt : row < rows
            · rw [if_pos hlt, if_pos (by omega)]
            · rw [if_neg hlt, if_neg (by omega)]

namespace Table

variable {t t' : Table} {call : TableCall} {col : Nat}

/-- What a table becomes when it takes rows. -/
def take (t : Table) (count : Nat) : Table :=
  { t with
    numRows := t.numRows + count
    columns := t.columns.map fun c => (c.commit? (t.numRows + count)).getD c }

/-- A call with its answer, and what it leaves. -/
inductive Performed (t : Table) : TableCall → TableAnswer → Table → Prop
  | takes {call : TableCall} {count : Nat} (hcount : call.count? = some count)
      (hroom : t.numRows + count ≤ t.maxRows) : Performed t call (.rows t.numRows) (t.take count)
  | full {call : TableCall} {count : Nat} (hcount : call.count? = some count)
      (hfull : t.maxRows < t.numRows + count) :
      Performed t call (.refused (.tableFull t.maxRows)) t
  | clears : Performed t .clear (.done true) t.clear
  | commits {col rows : Nat} {column column' : Column} (hcolumn : t.columns[col]? = some column)
      (hcommit : column.commit? rows = some column') :
      Performed t (.commit col rows) (.done true) (t.setColumn col column')
  | sets {col row : Nat} {value : Value} {column : Column} (hcolumn : t.columns[col]? = some column)
      (hholds : column.holds value.info = true) (hlive : row < t.numRows)
      (hrow : row < column.reservedRows) :
      Performed t (.set col row value) (.done true) (t.setColumn col (column.setCell row value))
  | writes {col row : Nat} {value : Value} {column : Column}
      (hcolumn : t.columns[col]? = some column) (hholds : column.holds value.info = true)
      (hrow : row < column.reservedRows) :
      Performed t (.write col row value) (.done true) (t.setColumn col (column.setCell row value))
  | fills {col : Nat} {value : Value} {column : Column} (hcolumn : t.columns[col]? = some column)
      (hholds : column.holds value.info = true) :
      Performed t (.fill col value) (.done true) (t.setColumn col (column.fill value t.numRows))
  | misses {call : TableCall} (hcount : call.count? = none) (hclears : call.clears = false) :
      Performed t call (.done false) t
  | faults {call : TableCall} {fault : Fault} (hcount : call.count? = none)
      (hclears : call.clears = false) : Performed t call (.faulted fault) t

theorem allocRows_eq (t : Table) (count : Nat) :
    t.allocRows count = if t.maxRows < t.numRows + count then .error (.tableFull t.maxRows)
      else .ok (t.numRows, t.take count) := rfl

theorem getElem?_setColumn {column column' : Column} (h : t.columns[col]? = some column)
    (other : Nat) : (t.setColumn col column').columns[other]? =
      if other = col then some column' else t.columns[other]? := by
  obtain ⟨hlt, -⟩ := Array.getElem?_eq_some_iff.1 h
  by_cases hother : other = col
  · subst hother
    simp [setColumn, hlt]
  · simp [setColumn, hother, Ne.symm hother]

theorem getElem?_take (t : Table) (count col : Nat) : (t.take count).columns[col]? =
    (t.columns[col]?).map fun c => (c.commit? (t.numRows + count)).getD c :=
  Array.getElem?_map

/-- A call that asks for rows gets them all or none. -/
theorem perform_of_count {count : Nat} (hcount : call.count? = some count) :
    t.perform call = if t.maxRows < t.numRows + count then (.refused (.tableFull t.maxRows), t)
      else (.rows t.numRows, t.take count) := by
  have hall : t.handed (t.allocRows count) =
      if t.maxRows < t.numRows + count then (.refused (.tableFull t.maxRows), t)
      else (.rows t.numRows, t.take count) := by
    rw [allocRows_eq]
    by_cases hfull : t.maxRows < t.numRows + count
    · rw [if_pos hfull, if_pos hfull]
      rfl
    · rw [if_neg hfull, if_neg hfull]
      rfl
  cases call with
  | allocRows | allocRow =>
      obtain rfl := Option.some.inj hcount
      exact hall
  | _ => contradiction

section Stores

variable {row : Nat} {value : Value} {column : Column}

theorem write_eq (hcolumn : t.columns[col]? = some column) (hholds : column.holds value.info = true)
    (hrow : row < column.reservedRows) :
    t.write col row value = .ok (t.setColumn col (column.setCell row value)) := by
  simp [write, typedColumn_ok hcolumn hholds, hrow, bind, Except.bind, pure, Except.pure]

theorem fill_ok (hcolumn : t.columns[col]? = some column)
    (hholds : column.holds value.info = true) :
    t.fill col value = .ok (t.setColumn col (column.fill value t.numRows)) := by
  simp [fill, typedColumn_ok hcolumn hholds, bind, Except.bind, pure, Except.pure]

theorem commit_ok (hcolumn : t.columns[col]? = some column) (rows : Nat) :
    t.commit col rows = .ok ((column.commit? rows).map (t.setColumn col ·)) := by
  simp [commit, Table.column, hcolumn, bind, Except.bind, pure, Except.pure]

theorem commit_missing (hcolumn : t.columns[col]? = none) (rows : Nat) :
    t.commit col rows = .error (.indexOutOfBounds t.columns.size col) := by
  simp [commit, Table.column, hcolumn, bind, Except.bind]

theorem set_of_le (hrow : t.numRows ≤ row) (col : Nat) (value : Value) :
    t.set col row value = .ok none :=
  if_pos hrow

theorem set_of_lt (hrow : row < t.numRows) (col : Nat) (value : Value) :
    t.set col row value = (t.write col row value).map some := by
  rw [set, if_neg hrow.not_ge]
  cases t.write col row value <;> rfl

theorem perform_write (hcolumn : t.columns[col]? = some column)
    (hholds : column.holds value.info = true) (hrow : row < column.reservedRows) :
    t.perform (.write col row value) = (.done true, t.setColumn col (column.setCell row value)) :=
  congrArg t.stored (write_eq hcolumn hholds hrow)

theorem perform_set (hrow : row < t.numRows) (col : Nat) (value : Value) :
    t.perform (.set col row value) = t.perform (.write col row value) :=
  congrArg t.changed (set_of_lt hrow col value)

theorem perform_set_of_le (hrow : t.numRows ≤ row) (col : Nat) (value : Value) :
    t.perform (.set col row value) = (.done false, t) :=
  congrArg t.changed (set_of_le hrow col value)

theorem perform_fill (hcolumn : t.columns[col]? = some column)
    (hholds : column.holds value.info = true) : t.perform (.fill col value) =
      (.done true, t.setColumn col (column.fill value t.numRows)) :=
  congrArg t.stored (fill_ok hcolumn hholds)

theorem perform_commit (hcolumn : t.columns[col]? = some column) (rows : Nat) :
    t.perform (.commit col rows) = t.changed (.ok ((column.commit? rows).map (t.setColumn col ·))) :=
  congrArg t.changed (commit_ok hcolumn rows)

theorem perform_commit_missing (hcolumn : t.columns[col]? = none) (rows : Nat) :
    t.perform (.commit col rows) = (.faulted (.indexOutOfBounds t.columns.size col), t) :=
  congrArg t.changed (commit_missing hcolumn rows)

end Stores

theorem performed (t : Table) (call : TableCall) :
    Performed t call (t.perform call).1 (t.perform call).2 := by
  have htakes : ∀ {count}, call.count? = some count →
      Performed t call (t.perform call).1 (t.perform call).2 := by
    intro count hcount
    rw [perform_of_count hcount]
    by_cases hfull : t.maxRows < t.numRows + count
    · rw [if_pos hfull]
      exact .full hcount hfull
    · rw [if_neg hfull]
      exact .takes hcount (Nat.le_of_not_lt hfull)
  have hfaults : ∀ {fault : Fault}, call.count? = none → call.clears = false →
      t.perform call = (.faulted fault, t) →
      Performed t call (t.perform call).1 (t.perform call).2 := by
    intro fault hcount hclears hcall
    rw [hcall]
    exact .faults hcount hclears
  cases call with
  | allocRows count => exact htakes rfl
  | allocRow => exact htakes rfl
  | clear => exact .clears
  | commit col rows =>
      cases hcolumn : t.columns[col]? with
      | none => exact hfaults rfl rfl (perform_commit_missing hcolumn rows)
      | some column =>
          rw [perform_commit hcolumn]
          cases hcommit : column.commit? rows with
          | none => exact .misses rfl rfl
          | some column' => exact .commits hcolumn hcommit
  | set col row value =>
      rcases Nat.lt_or_ge row t.numRows with hrow | hrow
      · cases hwrite : t.write col row value with
        | error fault =>
            apply hfaults rfl rfl
            rw [perform_set hrow]
            exact congrArg t.stored hwrite
        | ok t' =>
            obtain ⟨column, hcolumn, hholds, hreserved, rfl⟩ := write_cases hwrite
            rw [perform_set hrow, perform_write hcolumn hholds hreserved]
            exact .sets hcolumn hholds hrow hreserved
      · rw [perform_set_of_le hrow]
        exact .misses rfl rfl
  | write col row value =>
      cases hwrite : t.write col row value with
      | error fault =>
          apply hfaults rfl rfl
          exact congrArg t.stored hwrite
      | ok t' =>
          obtain ⟨column, hcolumn, hholds, hrow, rfl⟩ := write_cases hwrite
          rw [perform_write hcolumn hholds hrow]
          exact .writes hcolumn hholds hrow
  | fill col value =>
      cases hcolumn : t.typedColumn col value.info with
      | error fault =>
          apply hfaults rfl rfl
          have hfill : t.fill col value = .error fault := by simp [fill, hcolumn, bind, Except.bind]
          exact congrArg t.stored hfill
      | ok column =>
          obtain ⟨hget, hholds⟩ := typedColumn_cases hcolumn
          rw [perform_fill hget hholds]
          exact .fills hget hholds

/-! ## What calls leave alone -/

/-- The table keeps its columns and its limit, and does not grow beyond that. -/
structure StaysWithin (t t' : Table) : Prop where
  columns : t'.columns.size = t.columns.size
  maxRows : t'.maxRows = t.maxRows
  numRows_le : t.numRows ≤ t.maxRows → t'.numRows ≤ t.maxRows

namespace StaysWithin

theorem refl (t : Table) : t.StaysWithin t := ⟨rfl, rfl, id⟩

theorem trans {t'' : Table} (h : t.StaysWithin t') (h' : t'.StaysWithin t'') :
    t.StaysWithin t'' := by
  refine ⟨h'.columns.trans h.columns, h'.maxRows.trans h.maxRows, fun hle => ?_⟩
  rw [← h.maxRows]
  exact h'.numRows_le (h.maxRows.symm ▸ h.numRows_le hle)

end StaysWithin

theorem staysWithin_perform (t : Table) (call : TableCall) : t.StaysWithin (t.perform call).2 := by
  have hperformed := t.performed call
  generalize (t.perform call).1 = answer at hperformed
  generalize (t.perform call).2 = t' at hperformed ⊢
  cases hperformed with
  | takes _ hroom => exact ⟨Array.size_map .., rfl, fun _ => hroom⟩
  | clears => exact ⟨rfl, rfl, fun _ => Nat.zero_le _⟩
  | commits | sets | writes | fills => exact ⟨Array.size_setIfInBounds, rfl, id⟩
  | full | misses | faults => exact .refl t

end Table
end Lockstep
