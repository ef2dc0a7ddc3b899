import Lockstep.Column

/-!
# Tables

The columns of one archetype with the row count that they share.  Rows are
handed out in order, and clearing a table forgets its rows while keeping both
the committed room and the bytes in it.
-/

namespace Lockstep

structure Table where
  columns : Array Column
  numRows : Nat
  maxRows : Nat

namespace Table

def new (infos : List TypeInfo) (maxRows chunk : UInt32) : Except Fault Table := do
  let columns ← infos.mapM (Column.new · maxRows chunk)
  return ⟨columns.toArray, 0, maxRows.toNat⟩

def committedBytes (t : Table) : Nat := (t.columns.map Column.committedBytes).toList.foldr (· + ·) 0

/-- Takes `count` rows in a row, and answers the first of them. -/
def allocRows (t : Table) (count : Nat) : Except StorageError (Nat × Table) :=
  let stop := t.numRows + count
  if t.maxRows < stop then .error (.tableFull t.maxRows)
  else .ok (t.numRows,
    { t with numRows := stop, columns := t.columns.map fun c => (c.commit? stop).getD c })

def allocRow (t : Table) : Except StorageError (Nat × Table) := t.allocRows 1

def clear (t : Table) : Table := { t with numRows := 0 }

def column (t : Table) (col : Nat) : Except Fault Column :=
  match t.columns[col]? with
  | some column => .ok column
  | none => .error (.indexOutOfBounds t.columns.size col)

def typedColumn (t : Table) (col : Nat) (info : TypeInfo) : Except Fault Column := do
  let column ← t.column col
  if column.holds info then return column else throw .layoutMismatch

def setColumn (t : Table) (col : Nat) (column : Column) : Table :=
  { t with columns := t.columns.setIfInBounds col column }

def rowOffset (t : Table) (col row : Nat) : Except Fault Nat := do
  let column ← t.column col
  if row < column.reservedRows then return column.rowOffset row else throw .rowNotReserved

def columnValues (t : Table) (col : Nat) (info : TypeInfo) : Except Fault (List Value) := do
  let column ← t.typedColumn col info
  return (List.range t.numRows).map (column.cell · info)

def fill (t : Table) (col : Nat) (value : Value) : Except Fault Table := do
  let column ← t.typedColumn col value.info
  return t.setColumn col (column.fill value t.numRows)

def get (t : Table) (col row : Nat) (info : TypeInfo) : Except Fault (Option Value) :=
  if t.numRows ≤ row then .ok none
  else return some ((← t.typedColumn col info).cell row info)

/-- Overwrites a reserved row, live or not. -/
def write (t : Table) (col row : Nat) (value : Value) : Except Fault Table := do
  let column ← t.typedColumn col value.info
  if row < column.reservedRows then return t.setColumn col (column.setCell row value)
  else throw .rowOutOfRange

def set (t : Table) (col row : Nat) (value : Value) : Except Fault (Option Table) :=
  if t.numRows ≤ row then .ok none
  else return some (← t.write col row value)

def commit (t : Table) (col rows : Nat) : Except Fault (Option Table) := do
  return ((← t.column col).commit? rows).map (t.setColumn col ·)

end Table
end Lockstep
