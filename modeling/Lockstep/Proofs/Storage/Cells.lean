import Lockstep.Proofs.Bytes
import Lockstep.Proofs.Memory
import Lockstep.Table
import Mathlib.Data.List.Basic
import Mathlib.Data.List.Forall2
import Mathlib.Algebra.Order.Ring.Nat

/-!
# Cells

A table is read and written in cells, one for each row of a column.  A cell that is
written holds the bytes of the value, and no other cell changes.  Rows come and go without
a change to any cell.
-/

namespace Lockstep

@[simp] theorem Entity.ofBytes_bytes (e : Entity) : Entity.ofBytes e.bytes = e := by
  have hlength : (Bytes.ofUInt32 e.index).length = 4 := Bytes.length_ofNat 4 _
  have hrest := Bytes.toUInt32_append e.generation []
  rw [List.append_nil] at hrest
  rw [Entity.ofBytes, Entity.bytes, Bytes.toUInt32_append, ← hlength, List.drop_left, hrest]

theorem Value.eq_of_bytes {value : Value} (value' : Value) (hinfo : value.info = value'.info)
    (hbytes : value.bytes = value'.bytes) : value = value' := by
  cases value
  cases value'
  obtain rfl := hinfo
  obtain rfl := hbytes
  rfl

namespace Column

def bytesAt (c : Column) (row : Nat) : List UInt8 := c.cells.read (c.rowOffset row) c.info.size

theorem size_of_holds {c : Column} {info : TypeInfo} (h : c.holds info = true) :
    info.size = c.info.size := by
  simp only [holds, Bool.and_eq_true, beq_iff_eq] at h
  rw [TypeInfo.size, h.1, TypeInfo.size]

@[simp] theorem bytes_cell {c : Column} {info : TypeInfo} (h : c.holds info = true) (row : Nat) :
    (c.cell row info).bytes = c.bytesAt row := by
  rw [bytesAt, ← size_of_holds h]
  rfl

theorem bytesAt_setCell {c : Column} {value : Value} (h : c.holds value.info = true)
    (row row' : Nat) :
    (c.setCell row value).bytesAt row' = if row' = row then value.bytes else c.bytesAt row' := by
  have hlength : value.bytes.length = c.info.size := value.length_bytes.trans (size_of_holds h)
  split
  · rename_i hrow
    subst hrow
    change (c.cells.write (c.rowOffset row') value.bytes).read (c.rowOffset row') c.info.size = _
    rw [← hlength, Memory.read_write]
  · rename_i hrow
    apply Memory.read_write_apart
    rw [hlength]
    rcases Nat.lt_or_gt_of_ne hrow with hlt | hlt
    · right
      exact (Nat.succ_mul ..).ge.trans (Nat.mul_le_mul_right _ hlt)
    · left
      exact (Nat.succ_mul ..).ge.trans (Nat.mul_le_mul_right _ hlt)

/-- What a column is made for. -/
structure SameShape (c c' : Column) : Prop where
  info : c'.info = c.info
  reservedRows : c'.reservedRows = c.reservedRows

theorem commit_eq (c : Column) (rows : Nat) :
    ∃ committedRows, (c.commit? rows).getD c = { c with committedRows } := by
  unfold commit?
  split
  · exact ⟨_, rfl⟩
  · split
    · exact ⟨_, rfl⟩
    · exact ⟨_, rfl⟩

theorem new_eq {info : TypeInfo} {rows chunk : UInt32} {c : Column}
    (h : Column.new info rows chunk = .ok c) :
    c.info = info ∧ c.reservedRows = rows.toNat ∧ c.cells = .zeroed := by
  unfold Column.new at h
  dsimp only at h
  split at h
  · split at h
    · contradiction
    · obtain rfl := Except.ok.inj h
      exact ⟨rfl, rfl, rfl⟩
  · split at h
    · obtain rfl := Except.ok.inj h
      exact ⟨rfl, rfl, rfl⟩
    · contradiction

end Column

/-! ## Tables -/

namespace Table

variable {t t' : Table} {col row : Nat} {value : Value}

def bytesAt (t : Table) (col row : Nat) : List UInt8 :=
  match t.columns[col]? with
  | some column => column.bytesAt row
  | none => []

theorem bytesAt_of_column {column : Column} (h : t.columns[col]? = some column) (row : Nat) :
    t.bytesAt col row = column.bytesAt row := by
  rw [bytesAt, h]

/-- The parts of a table that never change. -/
structure SameShape (t t' : Table) : Prop where
  maxRows : t'.maxRows = t.maxRows
  columns : ∀ (col : Nat) column, t.columns[col]? = some column →
    ∃ column', t'.columns[col]? = some column' ∧ column.SameShape column'

theorem SameShape.trans {t'' : Table} (h : t.SameShape t') (h' : t'.SameShape t'') :
    t.SameShape t'' := by
  refine ⟨h'.maxRows.trans h.maxRows, fun col column hcolumn => ?_⟩
  obtain ⟨column', hcolumn', hshape⟩ := h.columns col column hcolumn
  obtain ⟨column'', hcolumn'', hshape'⟩ := h'.columns col column' hcolumn'
  exact ⟨column'', hcolumn'', hshape'.info.trans hshape.info,
    hshape'.reservedRows.trans hshape.reservedRows⟩

theorem sameShape_clear (t : Table) : t.SameShape t.clear :=
  ⟨rfl, fun _ column hcolumn => ⟨column, hcolumn, rfl, rfl⟩⟩

/-- What taking rows does to a table. -/
structure Took (t : Table) (count first : Nat) (t' : Table) : Prop where
  first : first = t.numRows
  numRows : t'.numRows = t.numRows + count
  le : t'.numRows ≤ t.maxRows
  shape : t.SameShape t'
  bytesAt : ∀ col row, t'.bytesAt col row = t.bytesAt col row

theorem took_of_allocRows {count first : Nat} (h : t.allocRows count = .ok (first, t')) :
    t.Took count first t' := by
  unfold allocRows at h
  dsimp only at h
  split at h
  · contradiction
  rename_i hle
  obtain ⟨rfl, rfl⟩ := Prod.mk.inj (Except.ok.inj h)
  refine ⟨rfl, rfl, Nat.le_of_not_lt hle, ⟨rfl, fun col column hcolumn => ?_⟩, fun col row => ?_⟩
  · obtain ⟨committedRows, hcommit⟩ := column.commit_eq (t.numRows + count)
    exact ⟨{ column with committedRows }, by simp [hcolumn, hcommit], rfl, rfl⟩
  · cases hcolumn : t.columns[col]? with
    | none => simp [Table.bytesAt, hcolumn]
    | some column =>
        obtain ⟨committedRows, hcommit⟩ := column.commit_eq (t.numRows + count)
        simp only [Table.bytesAt, Array.getElem?_map, hcolumn, Option.map_some, hcommit]
        rfl

theorem full_of_allocRows {count : Nat} {e : StorageError} (h : t.allocRows count = .error e) :
    e = .tableFull t.maxRows ∧ t.maxRows < t.numRows + count := by
  unfold allocRows at h
  dsimp only at h
  split at h
  · rename_i hfull
    exact ⟨(Except.error.inj h).symm, hfull⟩
  · contradiction

theorem typedColumn_ok {column : Column} {info : TypeInfo} (h : t.columns[col]? = some column)
    (hholds : column.holds info = true) : t.typedColumn col info = .ok column := by
  simp [typedColumn, Table.column, h, hholds, bind, Except.bind, pure, Except.pure]

theorem typedColumn_cases {column : Column} {info : TypeInfo}
    (h : t.typedColumn col info = .ok column) :
    t.columns[col]? = some column ∧ column.holds info = true := by
  unfold typedColumn Table.column at h
  cases hcolumn : t.columns[col]? with
  | none => simp [hcolumn, bind, Except.bind] at h
  | some column' =>
      simp only [hcolumn, bind, Except.bind] at h
      split at h
      · rename_i hholds
        obtain rfl := Except.ok.inj h
        exact ⟨rfl, hholds⟩
      · contradiction

theorem get_ok {column : Column} {info : TypeInfo} (hrow : row < t.numRows)
    (h : t.columns[col]? = some column) (hholds : column.holds info = true) :
    t.get col row info = .ok (some (column.cell row info)) := by
  simp [get, Nat.not_le.2 hrow, typedColumn_ok h hholds, bind, Except.bind, pure, Except.pure]

/-- What writing a cell does to a table. -/
structure Wrote (t : Table) (col row : Nat) (value : Value) (t' : Table) : Prop where
  numRows : t'.numRows = t.numRows
  shape : t.SameShape t'
  bytesAt : ∀ col' row', t'.bytesAt col' row' =
    if col' = col ∧ row' = row then value.bytes else t.bytesAt col' row'

theorem write_cases (h : t.write col row value = .ok t') :
    ∃ column, t.columns[col]? = some column ∧ column.holds value.info = true ∧
      row < column.reservedRows ∧ t' = t.setColumn col (column.setCell row value) := by
  unfold write at h
  cases hcolumn : t.typedColumn col value.info with
  | error fault => simp [hcolumn, bind, Except.bind] at h
  | ok column =>
      obtain ⟨hget, hholds⟩ := typedColumn_cases hcolumn
      by_cases hrow : row < column.reservedRows
      · refine ⟨column, hget, hholds, hrow, ?_⟩
        simpa [hcolumn, hrow, bind, Except.bind, pure, Except.pure, eq_comm] using h
      · simp [hcolumn, hrow, bind, Except.bind, throw, throwThe, MonadExceptOf.throw] at h

theorem write_ok {column : Column} (h : t.columns[col]? = some column)
    (hholds : column.holds value.info = true) (hrow : row < column.reservedRows) :
    ∃ t', t.write col row value = .ok t' ∧ t.Wrote col row value t' := by
  obtain ⟨hlt, -⟩ := Array.getElem?_eq_some_iff.1 h
  refine ⟨t.setColumn col (column.setCell row value), ?_, rfl,
    ⟨rfl, fun col' column' hcolumn' => ?_⟩, fun col' row' => ?_⟩
  · simp [write, typedColumn_ok h hholds, hrow, bind, Except.bind, pure, Except.pure]
  · by_cases hcol : col' = col
    · subst hcol
      obtain rfl := Option.some.inj (h.symm.trans hcolumn')
      exact ⟨column.setCell row value, by simp [setColumn, hlt], rfl, rfl⟩
    · exact ⟨column', by simp [setColumn, Ne.symm hcol, hcolumn'], rfl, rfl⟩
  · by_cases hcol : col' = col
    · subst hcol
      have hset : (t.setColumn col' (column.setCell row value)).columns[col']? =
          some (column.setCell row value) := by simp [setColumn, hlt]
      rw [bytesAt_of_column hset, bytesAt_of_column h, Column.bytesAt_setCell hholds]
      simp only [true_and]
    · rw [if_neg fun hboth => hcol hboth.1]
      simp [Table.bytesAt, setColumn, Ne.symm hcol]

theorem mapM_ok {α β : Type} {f : α → Except Fault β} {l : List α} {l' : List β}
    (h : l.mapM f = .ok l') : List.Forall₂ (fun a b => f a = .ok b) l l' := by
  induction l generalizing l' with
  | nil =>
      obtain rfl := Except.ok.inj h
      exact .nil
  | cons a l ih =>
      rw [List.mapM_cons] at h
      cases ha : f a with
      | error fault => simp [ha, bind, Except.bind] at h
      | ok b =>
          cases hl : l.mapM f with
          | error fault => simp [ha, hl, bind, Except.bind] at h
          | ok bs =>
              obtain rfl : b :: bs = l' := by
                simpa [ha, hl, bind, Except.bind, pure, Except.pure] using h
              exact .cons ha (ih hl)

/-- A new table has no rows, and one new column for each layout. -/
theorem new_cases {infos : List TypeInfo} {maxRows chunk : UInt32}
    (h : Table.new infos maxRows chunk = .ok t) :
    t.numRows = 0 ∧ t.maxRows = maxRows.toNat ∧ t.columns.size = infos.length ∧
      ∀ (col : Nat) column, t.columns[col]? = some column →
        ∃ info, infos[col]? = some info ∧ Column.new info maxRows chunk = .ok column := by
  unfold Table.new at h
  cases hcolumns : infos.mapM (Column.new · maxRows chunk) with
  | error fault => simp [hcolumns, bind, Except.bind] at h
  | ok columns =>
      obtain rfl : ⟨columns.toArray, 0, maxRows.toNat⟩ = t := by
        simpa [hcolumns, bind, Except.bind, pure, Except.pure] using h
      obtain ⟨hlength, hmade⟩ := List.forall₂_iff_get.1 (mapM_ok hcolumns)
      refine ⟨rfl, rfl, hlength.symm, fun col column hcolumn => ?_⟩
      rw [List.getElem?_toArray] at hcolumn
      obtain ⟨hlt, rfl⟩ := List.getElem?_eq_some_iff.1 hcolumn
      exact ⟨_, List.getElem?_eq_getElem (hlength ▸ hlt), hmade col (hlength ▸ hlt) hlt⟩

theorem new_eq {infos : List TypeInfo} {maxRows chunk : UInt32}
    (h : Table.new infos maxRows chunk = .ok t) :
    t.numRows = 0 ∧ (∀ col row, ∀ b ∈ t.bytesAt col row, b = 0) ∧
      ∀ (col : Nat) info, infos[col]? = some info → ∃ column, t.columns[col]? = some column ∧
        column.info = info ∧ column.reservedRows = t.maxRows := by
  obtain ⟨hrows, hmax, hsize, hcolumns⟩ := new_cases h
  refine ⟨hrows, fun col row b hb => ?_, fun col info hinfo => ?_⟩
  · cases hcolumn : t.columns[col]? with
    | none =>
        rw [Table.bytesAt, hcolumn] at hb
        contradiction
    | some column =>
        obtain ⟨info, -, hnew⟩ := hcolumns col column hcolumn
        obtain ⟨-, -, hcells⟩ := Column.new_eq hnew
        rw [bytesAt_of_column hcolumn, Column.bytesAt, hcells] at hb
        exact Memory.read_zeroed _ _ b hb
  · obtain ⟨hlt, -⟩ := List.getElem?_eq_some_iff.1 hinfo
    have hlt : col < t.columns.size := hsize ▸ hlt
    have hcolumn : t.columns[col]? = some t.columns[col] := Array.getElem?_eq_getElem hlt
    obtain ⟨info', hinfo', hnew⟩ := hcolumns col _ hcolumn
    obtain rfl := Option.some.inj (hinfo.symm.trans hinfo')
    obtain ⟨hinfo, hreserved, -⟩ := Column.new_eq hnew
    exact ⟨_, hcolumn, hinfo, hreserved.trans hmax.symm⟩

end Table
end Lockstep
