import Lockstep.Component
import Lockstep.Memory

/-!
# Columns

A column reserves room for all rows that its table can ever have and keeps a
mark of how many of them are committed.  The mark moves in whole chunks and
never falls, and rows never move.
-/

namespace Lockstep

structure Column where
  info : TypeInfo
  reservedRows : Nat
  committedRows : Nat
  chunk : Nat
  cells : Memory

namespace Column

/-- Reserves `rows` cells and commits the first chunk of them.  A chunk of zero
rows counts as one row. -/
def new (info : TypeInfo) (rows chunk : UInt32) : Except Fault Column :=
  let chunk := max chunk.toNat 1
  let bytes := info.size * rows.toNat
  let column : Column := ⟨info, rows.toNat, min chunk rows.toNat, chunk, .zeroed⟩
  if bytes = 0 then
    if info.alignment = 0 then .error .zeroAlignment else .ok column
  else
    if Word.representable bytes info.alignment.toNat then .ok column else .error .columnLayout

def committedBytes (c : Column) : Nat := c.committedRows * c.info.size

/-- Moves the commit mark so that it covers `rows`; `none` when the reservation
does not. -/
def commit? (c : Column) (rows : Nat) : Option Column :=
  if c.reservedRows < rows then none
  else if rows ≤ c.committedRows then some c
  else
    let chunks := Word.ceilDiv rows c.chunk
    let mark := min (Word.saturatingMul chunks c.chunk) c.reservedRows
    some { c with committedRows := max c.committedRows mark }

def rowOffset (c : Column) (row : Nat) : Nat := row * c.info.size

def holds (c : Column) (info : TypeInfo) : Bool :=
  info.numBytes == c.info.numBytes && decide (info.alignment ≤ c.info.alignment)

def cell (c : Column) (row : Nat) (info : TypeInfo) : Value :=
  ⟨info, c.cells.read (c.rowOffset row) info.size, by simp⟩

def setCell (c : Column) (row : Nat) (value : Value) : Column :=
  { c with cells := c.cells.write (c.rowOffset row) value.bytes }

def fill (c : Column) (value : Value) (rows : Nat) : Column :=
  if value.info.size = 0 then c
  else rows.fold (fun row _ c => c.setCell row value) c

instance : ToString Column :=
  ⟨fun c => RecordText.record "Column"
    [("info", toString c.info), ("reserved_rows", toString c.reservedRows),
      ("committed_rows", toString c.committedRows)]⟩

end Column
end Lockstep
