/-!
# Print buffer

Messages of the running invocations, kept up to a capacity.  A message that finds
the buffer full is counted and lost; draining the buffer starts the count anew.  The
count is a word, and starts anew by itself when the word is full.
-/

namespace Lockstep

structure PrintBuffer where
  capacity : UInt32
  messages : Array String
  dropped : UInt64

structure PrintFlush where
  messages : List String
  warning : Option String

namespace PrintBuffer

def new (capacity : UInt32) : PrintBuffer := ⟨capacity, #[], 0⟩

def size (b : PrintBuffer) : Nat := b.messages.size

/-- Keeps a message if there is room, and tells whether there was. -/
def push (b : PrintBuffer) (message : String) : Bool × PrintBuffer :=
  if b.size < b.capacity.toNat then (true, { b with messages := b.messages.push message })
  else (false, { b with dropped := b.dropped + 1 })

def drain (b : PrintBuffer) : List String × UInt64 × PrintBuffer :=
  (b.messages.toList, b.dropped, { b with messages := #[], dropped := 0 })

def flush (b : PrintBuffer) : PrintFlush × PrintBuffer :=
  let (messages, dropped, b) := b.drain
  let warning :=
    if dropped = 0 then none
    else some s!"print buffer overflowed dropped={dropped} capacity={b.capacity}"
  (⟨messages, warning⟩, b)

end PrintBuffer
end Lockstep
