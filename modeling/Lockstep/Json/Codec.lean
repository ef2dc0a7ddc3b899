import Lockstep.Json.Skip
import Lockstep.Word

/-!
# JSON forms of types

A codec reads and writes the values of one type.  Records are written as objects
with their fields in order.  They are read from objects, in which fields may come
in any order and foreign fields are skipped, and from plain lists of the field
values.
-/

namespace Lockstep
namespace Json

structure Codec (α : Type) where
  read : Reader α
  write : α → List Char

namespace Codec

def text {α : Type} (codec : Codec α) (a : α) : String := String.ofList (codec.write a)

def parse {α : Type} (codec : Codec α) (text : String) : Except JsonError α :=
  Json.parse codec.read text

def map {α β : Type} (codec : Codec α) (f : α → β) (g : β → α) : Codec β where
  read cs := (codec.read cs).map fun (a, rest) => (f a, rest)
  write b := codec.write (g b)

def natBelow (bound : Nat) : Codec Nat where
  read := Json.natBelow bound
  write n := Nat.toDigits 10 n

def uint32 : Codec UInt32 := (natBelow Word.size32).map UInt32.ofNat UInt32.toNat

def uint64 : Codec UInt64 := (natBelow Word.size64).map UInt64.ofNat UInt64.toNat

def bool : Codec Bool where
  read := Json.boolean
  write b := (if b then "true" else "false").toList

end Codec

/-- A text between quotes; it must not hold characters that need an escape. -/
def quoted (text : String) : List Char := '"' :: text.toList ++ ['"']

structure Field (α : Type) where
  key : String
  read : α → Reader α
  write : α → List Char

namespace Field

def of {α β : Type} (key : String) (codec : Codec β) (get : α → β) (set : α → β → α) :
    Field α where
  key
  read a cs := (codec.read cs).map fun (b, rest) => (set a b, rest)
  write a := codec.write (get a)

end Field

structure RecordForm (α : Type) where
  fields : List (Field α)
  initial : α
  complete : Bool

inductive NextMember where
  | close (rest : List Char)
  | key (rest : List Char)

def nextMember (first : Bool) (cs : List Char) : Except JsonError NextMember :=
  match skipSpace cs with
  | [] => .error .truncated
  | '\x7d' :: rest => .ok (.close rest)
  | '"' :: rest => if first then .ok (.key rest) else .error .malformed
  | ',' :: rest =>
      if first then .error .malformed
      else
        match skipSpace rest with
        | [] => .error .truncated
        | '"' :: rest => .ok (.key rest)
        | _ => .error .malformed
  | _ => .error .malformed

def nextItem (first : Bool) (cs : List Char) : Except JsonError (List Char ⊕ List Char) :=
  match skipSpace cs with
  | [] => .error .truncated
  | ']' :: rest => .ok (.inl rest)
  | c :: rest =>
      if first then .ok (.inr (c :: rest))
      else if c = ',' then
        match skipSpace rest with
        | [] => .error .truncated
        | ']' :: _ => .error .malformed
        | rest => .ok (.inr rest)
      else .error .malformed

def listEnd (cs : List Char) : Except JsonError (List Char) :=
  match skipSpace cs with
  | [] => .error .truncated
  | ']' :: rest => .ok rest
  | _ => .error .malformed

namespace RecordForm

variable {α : Type}

def field? (form : RecordForm α) (key : List Char) : Option (Field α) :=
  form.fields.find? (·.key.toList == key)

def mayEnd (form : RecordForm α) (seen : List String) : Bool :=
  !form.complete || form.fields.all (seen.contains ·.key)

/-- Reads members up to the closing brace, at most `fuel` of them.  A known field
may be given once. -/
def readMembers (form : RecordForm α) :
    (fuel : Nat) → (first : Bool) → (seen : List String) → α → Reader α
  | 0, _, _, _, _ => .error .truncated
  | fuel + 1, first, seen, a, cs => do
      match ← nextMember first cs with
      | .close rest => if form.mayEnd seen then return (a, rest) else throw .mistyped
      | .key rest =>
          let (key, rest) ← stringBody true [] rest
          match form.field? key with
          | some field =>
              if seen.contains field.key then throw .mistyped
              else
                let (a, rest) ← field.read a (← afterColon rest)
                form.readMembers fuel false (field.key :: seen) a rest
          | none =>
              let rest ← skipValue (← afterColon rest)
              form.readMembers fuel false seen a rest

def readItems (form : RecordForm α) : (fields : List (Field α)) → (first : Bool) → α → Reader α
  | [], _, a, cs => return (a, ← listEnd cs)
  | field :: fields, first, a, cs => do
      match ← nextItem first cs with
      | .inl rest => if form.complete then throw .mistyped else return (a, rest)
      | .inr rest =>
          let (a, rest) ← field.read a rest
          form.readItems fields false a rest

def read (form : RecordForm α) : Reader α := fun cs =>
  match skipSpace cs with
  | [] => .error .truncated
  | '\x7b' :: rest => form.readMembers (rest.length + 1) true [] form.initial rest
  | '[' :: rest => form.readItems form.fields true form.initial rest
  | cs => .error (wrongKind cs)

def write (form : RecordForm α) (a : α) : List Char :=
  '\x7b' :: [','].intercalate
    (form.fields.map fun field => quoted field.key ++ ':' :: field.write a) ++ ['\x7d']

def codec (form : RecordForm α) : Codec α := ⟨form.read, form.write⟩

end RecordForm

structure EnumForm (α : Type) where
  name : α → String
  all : List α

namespace EnumForm

variable {α : Type}

def ofName? (form : EnumForm α) (name : List Char) : Option α :=
  form.all.find? fun a => (form.name a).toList == name

def readName (form : EnumForm α) : Reader α := fun cs => do
  let (name, rest) ← stringBody true [] cs
  match form.ofName? name with
  | some a => return (a, rest)
  | none => throw .mistyped

/-- Reads the name as a key whose value is null. -/
def readKeyed (form : EnumForm α) : Reader α := fun cs => do
  let (a, rest) ← match skipSpace cs with
    | [] => throw .truncated
    | '"' :: rest => form.readName rest
    | _ => throw .malformed
  let ((), rest) ← null (← afterColon rest)
  match skipSpace rest with
  | [] => throw .truncated
  | '\x7d' :: rest => return (a, rest)
  | _ => throw .malformed

def read (form : EnumForm α) : Reader α := fun cs =>
  match skipSpace cs with
  | [] => .error .truncated
  | '"' :: rest => form.readName rest
  | '\x7b' :: rest => form.readKeyed rest
  | _ => .error .malformed

def codec (form : EnumForm α) : Codec α := ⟨form.read, fun a => quoted (form.name a)⟩

end EnumForm
end Json
end Lockstep
