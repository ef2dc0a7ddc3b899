import Lockstep.PrintBuffer

/-!
# Histories of a print buffer

Pushes, drains and flushes in any order, each with what it has given back.  The two halves of
a drain may also be calls of their own, since other calls can come between them.
-/

namespace Lockstep

/-- A message that was pushed, and whether it was kept. -/
structure Pushed where
  message : String
  kept : Bool
deriving DecidableEq

namespace Pushed

def queued (log : List Pushed) : List String := (log.filter kept).map message

def refused (log : List Pushed) : Nat := log.countP (!·.kept)

end Pushed

def PrintBuffer.pushAll (b : PrintBuffer) : List String → List Pushed × PrintBuffer
  | [] => ([], b)
  | message :: messages =>
      let (kept, b) := b.push message
      let (log, b) := b.pushAll messages
      (⟨message, kept⟩ :: log, b)

/-- What the host is warned of when messages have been refused. -/
def PrintBuffer.warning? (refused : UInt64) (capacity : UInt32) : Option String :=
  if refused = 0 then none
  else some s!"print buffer overflowed dropped={refused} capacity={capacity}"

inductive PrintCall where
  | push (message : String)
  | drain
  | flush
  /-- The first half of a drain. -/
  | takeMessages
  /-- The second half of a drain. -/
  | takeDropped
deriving DecidableEq

inductive PrintAnswer where
  | pushed (kept : Bool)
  | drained (messages : List String) (dropped : UInt64)
  | flushed (flush : PrintFlush)
  | messages (messages : List String)
  | dropped (count : UInt64)

structure PrintExchange where
  call : PrintCall
  answer : PrintAnswer

def PrintCall.message? : PrintCall → Option String
  | push message => some message
  | _ => none

namespace PrintExchange

def pushed? : PrintExchange → Option Pushed
  | ⟨.push message, .pushed kept⟩ => some ⟨message, kept⟩
  | _ => none

def delivered (x : PrintExchange) : List String :=
  match x.answer with
  | .drained messages _ => messages
  | .flushed flush => flush.messages
  | .messages messages => messages
  | .pushed _ | .dropped _ => []

/-- The exchange tells of so many messages that were lost.  A flush tells of them by its
warning. -/
def Reports (capacity : UInt32) (x : PrintExchange) (lost : UInt64) : Prop :=
  match x.answer with
  | .drained _ dropped => lost = dropped
  | .flushed flush => flush.warning = PrintBuffer.warning? lost capacity
  | .dropped count => lost = count
  | .pushed _ | .messages _ => lost = 0

end PrintExchange

namespace PrintBuffer

def takeMessages (b : PrintBuffer) : List String × PrintBuffer :=
  (b.messages.toList, { b with messages := #[] })

def takeDropped (b : PrintBuffer) : UInt64 × PrintBuffer := (b.dropped, { b with dropped := 0 })

def perform (b : PrintBuffer) : PrintCall → PrintAnswer × PrintBuffer
  | .push message =>
      let (kept, b) := b.push message
      (.pushed kept, b)
  | .drain =>
      let (messages, dropped, b) := b.drain
      (.drained messages dropped, b)
  | .flush =>
      let (flush, b) := b.flush
      (.flushed flush, b)
  | .takeMessages =>
      let (messages, b) := b.takeMessages
      (.messages messages, b)
  | .takeDropped =>
      let (count, b) := b.takeDropped
      (.dropped count, b)

def after (b : PrintBuffer) (calls : List PrintCall) : PrintBuffer :=
  calls.foldl (fun b call => (b.perform call).2) b

def exchanges : PrintBuffer → (calls : List PrintCall) → List PrintExchange
  | _, [] => []
  | b, call :: calls => ⟨call, (b.perform call).1⟩ :: exchanges (b.perform call).2 calls

end PrintBuffer
end Lockstep
