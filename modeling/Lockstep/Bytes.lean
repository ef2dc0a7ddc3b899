/-!
# Bytes

Little-endian words, hexadecimal text, and parts of byte strings.
-/

namespace Lockstep
namespace Bytes

/-- The `width` low bytes of `n`, least significant first. -/
def ofNat : (width n : Nat) → List UInt8
  | 0, _ => []
  | width + 1, n => n.toUInt8 :: ofNat width (n / 256)

def toNat : List UInt8 → Nat
  | [] => 0
  | b :: bs => b.toNat + 256 * toNat bs

def ofUInt32 (w : UInt32) : List UInt8 := ofNat 4 w.toNat

def ofUInt64 (w : UInt64) : List UInt8 := ofNat 8 w.toNat

def toUInt32 (bs : List UInt8) : UInt32 := UInt32.ofNat (toNat (bs.take 4))

def toUInt64 (bs : List UInt8) : UInt64 := UInt64.ofNat (toNat (bs.take 8))

def hexDigit (n : Nat) : Char :=
  if n < 10 then Char.ofNat (48 + n) else Char.ofNat (87 + n)

def hexValue? (c : Char) : Option Nat :=
  if '0' ≤ c ∧ c ≤ '9' then some (c.toNat - 48)
  else if 'a' ≤ c ∧ c ≤ 'f' then some (c.toNat - 87)
  else if 'A' ≤ c ∧ c ≤ 'F' then some (c.toNat - 55)
  else none

def toHex (bs : List UInt8) : String :=
  String.ofList (bs.flatMap fun b => [hexDigit (b.toNat / 16), hexDigit (b.toNat % 16)])

/-- Reads digit pairs back; a lone or foreign character is refused. -/
def ofHexChars? : List Char → Option (List UInt8)
  | [] => some []
  | [_] => none
  | hi :: lo :: rest => do
      let h ← hexValue? hi
      let l ← hexValue? lo
      let bs ← ofHexChars? rest
      return UInt8.ofNat (16 * h + l) :: bs

def ofHex? (text : String) : Option (List UInt8) := ofHexChars? text.toList

def pieces (size : Nat) : (n : Nat) → List UInt8 → List (List UInt8)
  | 0, _ => []
  | _, [] => []
  | n + 1, bs => bs.take size :: pieces size n (bs.drop size)

/-- The bytes with these written over them from a position on. -/
def overwrite (bs : List UInt8) (position : Nat) (new : List UInt8) : List UInt8 :=
  bs.take position ++ new ++ bs.drop (position + new.length)

end Bytes
end Lockstep
