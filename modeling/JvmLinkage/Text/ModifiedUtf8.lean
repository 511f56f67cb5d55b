import JvmLinkage.Text.Basic

/-!
# Modified UTF-8

Class files hold text as UTF-16 code units, each written in one to three octets. Reading combines
surrogate pairs and gives UTF-8; what is no unit, and a surrogate without its partner, becomes the
replacement character.
-/

namespace JvmLinkage.Text.ModifiedUtf8

/-- The unit that stands for unreadable input. -/
def replacementUnit : Nat := 0xFFFD

/-- The six low bits of a continuation octet. -/
def low6 (b : UInt8) : Nat := b.toNat % 0x40

/-- Whether the octet opens a unit of two octets. -/
def opensTwo (a : UInt8) : Bool := a &&& 0xE0 = 0xC0

/-- Whether the octet opens a unit of three octets. -/
def opensThree (a : UInt8) : Bool := a &&& 0xF0 = 0xE0

/-- The unit of one octet. -/
def unit1 (a : UInt8) : Nat := if a < 0x80 then a.toNat else replacementUnit

/-- The unit of two octets. -/
def unit2 (a b : UInt8) : Nat := a.toNat % 0x20 * 0x40 + low6 b

/-- The unit of three octets. -/
def unit3 (a b c : UInt8) : Nat := (a.toNat % 0x10 * 0x40 + low6 b) * 0x40 + low6 c

/-- The UTF-16 code units of a string of octets. -/
def units : Bytes → List Nat
  | [] => []
  | [a] => [unit1 a]
  | [a, b] => if opensTwo a then [unit2 a b] else unit1 a :: units [b]
  | a :: b :: c :: rest =>
    if opensTwo a then unit2 a b :: units (c :: rest)
    else if opensThree a then unit3 a b c :: units rest
    else unit1 a :: units (b :: c :: rest)

/-- Whether a unit opens a surrogate pair. -/
def isHighSurrogate (u : Nat) : Bool := 0xD800 ≤ u && u < 0xDC00

/-- Whether a unit closes a surrogate pair. -/
def isLowSurrogate (u : Nat) : Bool := 0xDC00 ≤ u && u < 0xE000

/-- The character of a surrogate pair. -/
def pairChar (high low : Nat) : Char :=
  Char.ofNat ((high - 0xD800) * 0x400 + (low - 0xDC00) + 0x10000)

/-- The character of a unit on its own, which for a surrogate is the replacement character. -/
def unitChar (u : Nat) : Char :=
  if isHighSurrogate u || isLowSurrogate u then Char.ofNat replacementUnit else Char.ofNat u

/-- The characters of a sequence of code units. -/
def charsOfUnits : List Nat → List Char
  | [] => []
  | [u] => [unitChar u]
  | u :: v :: rest =>
    if isHighSurrogate u && isLowSurrogate v then pairChar u v :: charsOfUnits rest
    else unitChar u :: charsOfUnits (v :: rest)

/-- Reads text without looking for the short way. -/
def decodeUnits (data : Bytes) : Text := Text.ofChars (charsOfUnits (units data))

/-- Reads text; octets below `0x80` throughout are already UTF-8. -/
def decode (data : Bytes) : Text := if data.all (· < 0x80) then data else decodeUnits data

end JvmLinkage.Text.ModifiedUtf8
