import JvmLinkage.Text.Basic

/-!
# Reading UTF-8

A text is read as a list of glyphs: well-formed characters, and octets that belong to none. Each
octet that starts no well-formed character is a glyph of its own.
-/

namespace JvmLinkage.Text

/-- A character, or an octet that is part of none. -/
inductive Glyph where
  | char (c : Char)
  | stray (b : UInt8)
  deriving DecidableEq, Repr, Inhabited

namespace Utf8

/-- Whether the octet can follow the first one of a longer character. -/
def isContinuation (b : UInt8) : Bool := 0x80 ≤ b && b ≤ 0xBF

/-- The payload of a continuation octet. -/
def payload (b : UInt8) : Nat := b.toNat % 0x40

/-- The smallest second octet that keeps a character in its shortest form. -/
def secondFrom (b : UInt8) : UInt8 :=
  if b = 0xE0 then 0xA0 else if b = 0xF0 then 0x90 else 0x80

/-- The largest second octet that avoids surrogates and points past the last one. -/
def secondTo (b : UInt8) : UInt8 :=
  if b = 0xED then 0x9F else if b = 0xF4 then 0x8F else 0xBF

/-- The character at the start of a text, with the number of octets that follow its first one. -/
def first? : Text → Option (Char × Nat)
  | [] => none
  | a :: rest =>
    if a < 0x80 then some (Char.ofNat a.toNat, 0)
    else if 0xC2 ≤ a && a ≤ 0xDF then
      match rest with
      | b :: _ =>
        if isContinuation b then some (Char.ofNat (a.toNat % 0x20 * 0x40 + payload b), 1) else none
      | [] => none
    else if 0xE0 ≤ a && a ≤ 0xEF then
      match rest with
      | b :: c :: _ =>
        if secondFrom a ≤ b && b ≤ secondTo a && isContinuation c then
          some (Char.ofNat ((a.toNat % 0x10 * 0x40 + payload b) * 0x40 + payload c), 2)
        else none
      | _ => none
    else if 0xF0 ≤ a && a ≤ 0xF4 then
      match rest with
      | b :: c :: d :: _ =>
        if secondFrom a ≤ b && b ≤ secondTo a && isContinuation c && isContinuation d then
          some (Char.ofNat
            (((a.toNat % 0x08 * 0x40 + payload b) * 0x40 + payload c) * 0x40 + payload d), 3)
        else none
      | _ => none
    else none

/-- The glyphs of a text, of which the first `skip` octets are already accounted for. -/
def glyphsFrom : Nat → Text → List Glyph
  | _, [] => []
  | skip + 1, _ :: rest => glyphsFrom skip rest
  | 0, b :: rest =>
    match first? (b :: rest) with
    | some (c, more) => .char c :: glyphsFrom more rest
    | none => .stray b :: glyphsFrom 0 rest

end Utf8

/-- The text as characters and stray octets, in order. -/
def glyphs (t : Text) : List Glyph := Utf8.glyphsFrom 0 t

namespace Glyph

/-- The character shown for a glyph: a stray octet shows as the replacement character. -/
def shown : Glyph → Char
  | .char c => c
  | .stray _ => Char.ofNat 0xFFFD

/-- The octets of a glyph. -/
def bytes : Glyph → Text
  | .char c => String.utf8EncodeChar c
  | .stray b => [b]

end Glyph

/-- The characters of a text, the replacement character standing for each stray octet. -/
def chars (t : Text) : List Char := t.glyphs.map Glyph.shown

/-- The text as a string, the replacement character standing for each stray octet. -/
def display (t : Text) : String := String.ofList t.chars

/-- The number of glyphs. -/
def glyphCount (t : Text) : Nat := t.glyphs.length

/-- The text followed by spaces up to a number of glyphs. -/
def padRight (width : Nat) (t : Text) : Text := t ++ spaces (width - t.glyphCount)

/-- The text after spaces up to a number of glyphs. -/
def padLeft (width : Nat) (t : Text) : Text := spaces (width - t.glyphCount) ++ t

/-- Whether the whole text is UTF-8. -/
def isUtf8 (t : Text) : Bool :=
  t.glyphs.all fun
    | .char _ => true
    | .stray _ => false

end JvmLinkage.Text
