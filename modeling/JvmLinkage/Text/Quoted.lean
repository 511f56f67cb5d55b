import JvmLinkage.Text.Utf8
import JvmLinkage.Text.Printable
import JvmLinkage.Text.Decimal

/-!
# Quoted texts

A text between quotation marks in which every mark, every character without a printed form and
every stray octet is written by an escape, so that messages show exactly which text was refused.
-/

namespace JvmLinkage.Text.Quoted

/-- The short escape of a control character, if it has one. -/
def shortEscape? (n : Nat) : Option Text :=
  match n with
  | 0x07 => some "\\a"
  | 0x08 => some "\\b"
  | 0x09 => some "\\t"
  | 0x0A => some "\\n"
  | 0x0B => some "\\v"
  | 0x0C => some "\\f"
  | 0x0D => some "\\r"
  | _ => none

/-- A character as it stands between marks. -/
def escapeChar (mark c : Char) : Text :=
  let n := c.toNat
  if c = mark || n = 0x5C then Ascii.backslash :: String.utf8EncodeChar c
  else if Printable.isPrintable c then String.utf8EncodeChar c
  else match shortEscape? n with
    | some escape => escape
    | none =>
      if n < 0x20 || n = 0x7F then "\\x" ++ hex 2 n
      else if n < 0x10000 then "\\u" ++ hex 4 n
      else "\\U" ++ hex 8 n

/-- A glyph as it stands between quotation marks. -/
def escape : Glyph → Text
  | .char c => escapeChar '"' c
  | .stray b => "\\x" ++ hex 2 b.toNat

/-- The text between quotation marks, escaped. -/
def encode (t : Text) : Text := Ascii.quote :: t.glyphs.flatMap escape ++ [Ascii.quote]

/-- A character between apostrophes, escaped. -/
def encodeChar (c : Char) : Text :=
  Ascii.apostrophe :: escapeChar '\'' c ++ [Ascii.apostrophe]

end JvmLinkage.Text.Quoted

namespace JvmLinkage.Text

/-- The text between quotation marks, escaped. -/
def quoted (t : Text) : Text := Quoted.encode t

end JvmLinkage.Text
