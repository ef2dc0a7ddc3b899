import Lockstep.Table

/-!
# Histories of a table

Rows taken and forgotten, rows committed and cells stored, in any order and each with the
answer of the table.  A call that is refused, or that faults, leaves the table as it was.
-/

namespace Lockstep

inductive TableCall where
  | allocRows (count : Nat)
  | allocRow
  | clear
  | commit (col rows : Nat)
  | set (col row : Nat) (value : Value)
  | write (col row : Nat) (value : Value)
  | fill (col : Nat) (value : Value)

inductive TableAnswer where
  | rows (first : Nat)
  | done (was : Bool)
  | refused (error : StorageError)
  | faulted (fault : Fault)
deriving DecidableEq

structure TableExchange where
  call : TableCall
  answer : TableAnswer

/-- Rows that were taken together. -/
structure RowSpan where
  first : Nat
  count : Nat
deriving DecidableEq

def RowSpan.stop (s : RowSpan) : Nat := s.first + s.count

/-- Whether spans follow one another without a gap, from the row `start` to the row `stop`. -/
def Adjoin : (start : Nat) → (spans : List RowSpan) → (stop : Nat) → Prop
  | start, [], stop => start = stop
  | start, s :: spans, stop => s.first = start ∧ Adjoin s.stop spans stop

namespace TableCall

/-- The number of rows that the call asks for. -/
def count? : TableCall → Option Nat
  | allocRows count => some count
  | allocRow => some 1
  | _ => none

def clears : TableCall → Bool
  | clear => true
  | _ => false

def commits : TableCall → Bool
  | commit .. => true
  | _ => false

end TableCall

namespace TableExchange

def span? : TableExchange → Option RowSpan
  | ⟨call, .rows first⟩ => call.count?.map (⟨first, ·⟩)
  | _ => none

/-- How many rows of a column the exchange asks for, taken or committed. -/
def reach (col : Nat) : TableExchange → Nat
  | ⟨call, .rows first⟩ => first + call.count?.getD 0
  | ⟨.commit col' rows, .done true⟩ => if col' = col then rows else 0
  | _ => 0

end TableExchange

namespace Table

/-- What a call that asks for rows leaves. -/
def handed (t : Table) : Except StorageError (Nat × Table) → TableAnswer × Table
  | .ok (first, t') => (.rows first, t')
  | .error e => (.refused e, t)

/-- What any other call leaves.  It may have no effect where there is nothing to change. -/
def changed (t : Table) : Except Fault (Option Table) → TableAnswer × Table
  | .ok (some t') => (.done true, t')
  | .ok none => (.done false, t)
  | .error fault => (.faulted fault, t)

def stored (t : Table) (result : Except Fault Table) : TableAnswer × Table :=
  t.changed (result.map some)

def perform (t : Table) : TableCall → TableAnswer × Table
  | .allocRows count => t.handed (t.allocRows count)
  | .allocRow => t.handed t.allocRow
  | .clear => (.done true, t.clear)
  | .commit col rows => t.changed (t.commit col rows)
  | .set col row value => t.changed (t.set col row value)
  | .write col row value => t.stored (t.write col row value)
  | .fill col value => t.stored (t.fill col value)

def after (t : Table) (calls : List TableCall) : Table :=
  calls.foldl (fun t call => (t.perform call).2) t

def exchanges : Table → (calls : List TableCall) → List TableExchange
  | _, [] => []
  | t, call :: calls => ⟨call, (t.perform call).1⟩ :: exchanges (t.perform call).2 calls

/-- The spans taken since the table was last cleared. -/
def spansOf (history : List TableExchange) : List RowSpan :=
  history.foldl (fun spans e => if e.call.clears then [] else spans ++ e.span?.toList) []

/-- The most rows of a column that a history asks for. -/
def highWater (col : Nat) (history : List TableExchange) : Nat :=
  history.foldl (fun most e => max most (e.reach col)) 0

/-- How many rows out of `reserved` are committed when `most` were asked for: as many chunks as
cover them, but at least one. -/
def committedFor (reserved chunk most : Nat) : Nat :=
  min reserved (chunk * max 1 (Word.ceilDiv most chunk))

end Table

/-- The cells of a table, each with the bytes last stored to it, if any. -/
structure CellStore where
  rows : Nat
  stored : (col row : Nat) → Option (List UInt8)

namespace CellStore

def empty : CellStore := ⟨0, fun _ _ => none⟩

def put (s : CellStore) (col row : Nat) (bytes : List UInt8) : CellStore :=
  { s with stored := fun col' row' =>
      if col' = col ∧ row' = row then some bytes else s.stored col' row' }

/-- Stores the same bytes in all rows of a column that are in use. -/
def putAll (s : CellStore) (col : Nat) (bytes : List UInt8) : CellStore :=
  { s with stored := fun col' row' =>
      if col' = col ∧ row' < s.rows then some bytes else s.stored col' row' }

/-- What an exchange stores.  Rows come into use and go out of use with all that is in them. -/
def next (s : CellStore) : TableExchange → CellStore
  | ⟨call, .rows first⟩ => { s with rows := first + call.count?.getD 0 }
  | ⟨.clear, _⟩ => { s with rows := 0 }
  | ⟨.set col row value, .done true⟩ => s.put col row value.bytes
  | ⟨.write col row value, .done true⟩ => s.put col row value.bytes
  | ⟨.fill col value, .done true⟩ => s.putAll col value.bytes
  | _ => s

def of (history : List TableExchange) : CellStore := history.foldl next empty

/-- The bytes of a cell of this size; a cell that nothing was stored to is zero. -/
def bytes (s : CellStore) (size col row : Nat) : List UInt8 :=
  (s.stored col row).getD (List.replicate size 0)

end CellStore
end Lockstep
