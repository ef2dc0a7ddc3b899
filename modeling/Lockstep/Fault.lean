/-!
# Faults

A fault ends a call without an answer: it marks a broken promise of the caller
or a word too small for its value.  Failures that a caller is expected to
handle are errors and live with the types that raise them.
-/

namespace Lockstep

inductive Fault where
  | addOverflow
  | mulOverflow
  | shiftOverflow
  | indexOutOfBounds (len index : Nat)
  | registryTooSmall
  /-- An empty column whose alignment is zero. -/
  | zeroAlignment
  | columnLayout
  | layoutMismatch
  | rowOutOfRange
  | rowNotReserved
  | arenaLayout
  | overReported (node finished left : UInt32)
  | invalidCount (node : UInt32) (count : Int)
  | missingCount (node : UInt32)
  | unregisteredFunction (func : UInt32)
  /-- An invocation gave up with a text of its own. -/
  | raised (text : String)
deriving DecidableEq

namespace Fault

def message : Fault → String
  | addOverflow => "attempt to add with overflow"
  | mulOverflow => "attempt to multiply with overflow"
  | shiftOverflow => "attempt to shift left with overflow"
  | indexOutOfBounds len index =>
      s!"index out of bounds: the len is {len} but the index is {index}"
  | registryTooSmall => "max_components must leave room for the Entity and WorldId columns"
  | zeroAlignment => "alignment is non-zero"
  | columnLayout => "column layout overflow: LayoutError"
  | layoutMismatch => "component layout mismatch"
  | rowOutOfRange => "row out of reserved range"
  | rowNotReserved => "assertion failed: row < self.reserved_rows"
  | arenaLayout =>
      "run arena layout is invalid: invalid parameters to Layout::from_size_align"
  | overReported node finished left =>
      s!"node {node} finished {finished} invocations with only {left} remaining"
  | invalidCount node count =>
      s!"node {node} resolved an invalid invocation count Some({count})"
  | missingCount node => s!"node {node} is dynamic but has no count accessor"
  | unregisteredFunction func => s!"no invocation registered for function {func}"
  | raised text => text

end Fault

end Lockstep
