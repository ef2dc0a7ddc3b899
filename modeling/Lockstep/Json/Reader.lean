import Lockstep.Bytes

/-!
# Reading JSON text

Readers take the text that is left and answer a value and the text after it.
They go from left to right and stop at the first problem.  The problem is one of
three: the text is no JSON, a value is of the wrong kind, or the text ends too
early.
-/

namespace Lockstep

inductive JsonError where
  | malformed
  | mistyped
  | truncated
deriving DecidableEq

namespace Json

abbrev Reader (α : Type) := List Char → Except JsonError (α × List Char)

def isSpace (c : Char) : Bool := c == ' ' || c == '\n' || c == '\t' || c == '\r'

def skipSpace (cs : List Char) : List Char := cs.dropWhile isSpace

def word : List Char → Reader Unit
  | [], cs => .ok ((), cs)
  | _ :: _, [] => .error .truncated
  | w :: ws, c :: cs => if w = c then word ws cs else .error .malformed

def afterColon (cs : List Char) : Except JsonError (List Char) :=
  match skipSpace cs with
  | [] => .error .truncated
  | ':' :: rest => .ok rest
  | _ => .error .malformed

def hexWord? (a b c d : Char) : Option Nat := do
  return 4096 * (← Bytes.hexValue? a) + 256 * (← Bytes.hexValue? b) +
    16 * (← Bytes.hexValue? c) + (← Bytes.hexValue? d)

/-- What is wrong with an escape that has fewer than four characters left: the
text ends too early when it has fewer than four bytes, too. -/
def shortEscape (cs : List Char) : JsonError :=
  if (cs.map Char.utf8Size).foldr (· + ·) 0 < 4 then .truncated else .malformed

def brokenPair : List Char → JsonError
  | [] => .truncated
  | ['\\'] => .truncated
  | '\\' :: 'u' :: rest => if rest.length < 4 then shortEscape rest else .malformed
  | _ => .malformed

def isLeadSurrogate (unit : Nat) : Bool := decide (0xD800 ≤ unit ∧ unit ≤ 0xDBFF)

def isTrailSurrogate (unit : Nat) : Bool := decide (0xDC00 ≤ unit ∧ unit ≤ 0xDFFF)

def pairedChar (lead trail : Nat) : Char :=
  Char.ofNat ((lead - 0xD800) * 1024 + (trail - 0xDC00) + 0x10000)

def simpleEscape? : Char → Option Char
  | '"' => some '"'
  | '\\' => some '\\'
  | '/' => some '/'
  | 'b' => some '\x08'
  | 'f' => some '\x0c'
  | 'n' => some '\n'
  | 'r' => some '\r'
  | 't' => some '\t'
  | _ => none

/-- Reads a string after its opening quote.  In a string whose text matters
(`paired`), the halves of a surrogate pair have to stand together. -/
def stringBody (paired : Bool) (text : List Char) : Reader (List Char)
  | [] => .error .truncated
  | '"' :: rest => .ok (text.reverse, rest)
  | '\\' :: [] => .error .truncated
  | '\\' :: 'u' :: a :: b :: c :: d :: rest =>
      match hexWord? a b c d with
      | none => .error .malformed
      | some unit =>
          if paired && isTrailSurrogate unit then .error .malformed
          else if paired && isLeadSurrogate unit then
            match rest with
            | '\\' :: 'u' :: e :: f :: g :: h :: rest =>
                match hexWord? e f g h with
                | none => .error .malformed
                | some trail =>
                    if isTrailSurrogate trail then
                      stringBody paired (pairedChar unit trail :: text) rest
                    else .error .malformed
            | rest => .error (brokenPair rest)
          else stringBody paired (Char.ofNat unit :: text) rest
  | '\\' :: 'u' :: rest => .error (shortEscape rest)
  | '\\' :: c :: rest =>
      match simpleEscape? c with
      | some e => stringBody paired (e :: text) rest
      | none => .error .malformed
  | c :: rest =>
      if c.toNat < 32 then .error .malformed else stringBody paired (c :: text) rest

structure Numeral where
  negative : Bool
  whole : List Char
  fraction : List Char
  exponent : Option (Bool × List Char)

def isDigit (c : Char) : Bool := decide ('0' ≤ c ∧ c ≤ '9')

def digitValue (c : Char) : Nat := c.toNat - '0'.toNat

def digitsValue (digits : List Char) : Nat :=
  digits.foldl (fun n c => 10 * n + digitValue c) 0

def digits (atEnd : JsonError) : Reader (List Char) := fun cs =>
  let rest := cs.dropWhile isDigit
  match cs.takeWhile isDigit with
  | [] => .error (if rest.isEmpty then atEnd else .malformed)
  | ds => .ok (ds, rest)

def fraction (atEnd : JsonError) : Reader (List Char)
  | '.' :: rest => digits atEnd rest
  | cs => .ok ([], cs)

def exponent (atEnd : JsonError) : Reader (Option (Bool × List Char))
  | c :: rest =>
      if c = 'e' ∨ c = 'E' then
        match rest with
        | '-' :: rest => do
            let (ds, rest) ← digits atEnd rest
            return (some (true, ds), rest)
        | '+' :: rest => do
            let (ds, rest) ← digits atEnd rest
            return (some (false, ds), rest)
        | rest => do
            let (ds, rest) ← digits atEnd rest
            return (some (false, ds), rest)
      else .ok (none, c :: rest)
  | [] => .ok (none, [])

def unsignedNumeral (atEnd : JsonError) (negative : Bool) : Reader Numeral := fun cs => do
  let (whole, rest) ← digits atEnd cs
  match whole with
  | '0' :: _ :: _ => throw .malformed
  | _ =>
      let (fraction, rest) ← fraction atEnd rest
      let (exponent, rest) ← exponent atEnd rest
      return (⟨negative, whole, fraction, exponent⟩, rest)

def numeral (atEnd : JsonError) : Reader Numeral
  | '-' :: rest => unsignedNumeral atEnd true rest
  | cs => unsignedNumeral atEnd false cs

namespace Numeral

/-- The leading digits that a 64-bit word has room for, and the power of ten that
scales them. -/
structure Scaled where
  digits : Nat
  power : Int
  exact : Bool

/-- Takes in a digit before the point; a digit left out counts as a power of ten. -/
def Scaled.pushWhole (s : Scaled) (c : Char) : Scaled :=
  let n := 10 * s.digits + digitValue c
  if s.exact && decide (n < 0x10000000000000000) then { s with digits := n }
  else { s with power := s.power + 1, exact := false }

def Scaled.pushFraction (s : Scaled) (c : Char) : Scaled :=
  let n := 10 * s.digits + digitValue c
  if s.exact && decide (n < 0x10000000000000000) then { s with digits := n, power := s.power - 1 }
  else { s with exact := false }

def scaled (n : Numeral) : Scaled :=
  let whole := n.whole.foldl Scaled.pushWhole ⟨0, 0, true⟩
  let all := n.fraction.foldl Scaled.pushFraction { whole with exact := true }
  match n.exponent with
  | none => all
  | some (true, ds) => { all with power := all.power - digitsValue ds }
  | some (false, ds) => { all with power := all.power + digitsValue ds }

/-- `n` with its 53 leading binary digits only, rounded to the nearest and to the
even one of two. -/
def round53 (n : Nat) : Nat :=
  let shift := n.log2 + 1 - 53
  let unit := 1 <<< shift
  let kept := n / unit
  let rest := n % unit
  if unit < 2 * rest || (2 * rest == unit && kept % 2 == 1) then (kept + 1) * unit
  else kept * unit

def isHuge (n : Numeral) : Bool :=
  let s := n.scaled
  s.digits != 0 && decide (0 ≤ s.power) &&
    (decide (308 < s.power) ||
      decide ((1 <<< 1024) - (1 <<< 970) ≤
        round53 s.digits * round53 (Nat.pow 10 s.power.toNat)))

def natural? (n : Numeral) : Option Nat :=
  if n.negative || !n.fraction.isEmpty || n.exponent.isSome then none
  else some (digitsValue n.whole)

end Numeral

def number : Reader Numeral := fun cs => do
  let (n, rest) ← numeral .truncated cs
  if n.isHuge then throw .malformed else return (n, rest)

/-- The problem of finding this text, spaces left out, where a value of another
kind is due.  Words, numbers and strings are read first, for they have to be
well-formed. -/
def wrongKind (cs : List Char) : JsonError :=
  let after {α : Type} (result : Except JsonError (α × List Char)) : JsonError :=
    match result with
    | .ok _ => .mistyped
    | .error e => e
  match cs with
  | [] => .truncated
  | c :: rest =>
      if c = 'n' then after (word "ull".toList rest)
      else if c = 't' then after (word "rue".toList rest)
      else if c = 'f' then after (word "alse".toList rest)
      else if c = '"' then after (stringBody true [] rest)
      else if c = '[' ∨ c = '{' then .mistyped
      else if c = '-' ∨ isDigit c then after (number cs)
      else .malformed

def natBelow (bound : Nat) : Reader Nat := fun cs =>
  match skipSpace cs with
  | [] => .error .truncated
  | c :: rest =>
      if c = '-' ∨ isDigit c then do
        let (n, rest) ← number (c :: rest)
        match n.natural? with
        | some value => if value < bound then return (value, rest) else throw .mistyped
        | none => throw .mistyped
      else .error (wrongKind (c :: rest))

def boolean : Reader Bool := fun cs =>
  match skipSpace cs with
  | [] => .error .truncated
  | 't' :: rest => do
      let ((), rest) ← word "rue".toList rest
      return (true, rest)
  | 'f' :: rest => do
      let ((), rest) ← word "alse".toList rest
      return (false, rest)
  | cs => .error (wrongKind cs)

def null : Reader Unit := fun cs =>
  match skipSpace cs with
  | [] => .error .truncated
  | 'n' :: rest => word "ull".toList rest
  | cs => .error (wrongKind cs)

def parse {α : Type} (reader : Reader α) (text : String) : Except JsonError α := do
  let (value, rest) ← reader text.toList
  if (skipSpace rest).isEmpty then return value else throw .malformed

end Json
end Lockstep
