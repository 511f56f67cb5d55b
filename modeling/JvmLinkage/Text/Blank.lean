import JvmLinkage.Text.Utf8

/-!
# Blanks and words

The characters that separate words are those with the Unicode property White_Space. A text is
trimmed and divided into words at them.
-/

namespace JvmLinkage.Text

/-- Whether the character separates words. -/
def isBlank (c : Char) : Bool :=
  let n := c.toNat
  (0x09 ≤ n && n ≤ 0x0D) || n = 0x20 || n = 0x85 || n = 0xA0 || n = 0x1680
    || (0x2000 ≤ n && n ≤ 0x200A) || n = 0x2028 || n = 0x2029 || n = 0x202F || n = 0x205F
    || n = 0x3000

/-- Whether the glyph separates words; a stray octet never does. -/
def Glyph.isBlank : Glyph → Bool
  | .char c => Text.isBlank c
  | .stray _ => false

/-- The octets of a list of glyphs. -/
def ofGlyphs (gs : List Glyph) : Text := gs.flatMap Glyph.bytes

/-- The text without the glyphs at both ends that satisfy `p`. -/
def trimBoth (p : Glyph → Bool) (t : Text) : Text :=
  ofGlyphs (((t.glyphs.dropWhile p).reverse.dropWhile p).reverse)

/-- The text without the blanks at both ends. -/
def trim (t : Text) : Text := t.trimBoth Glyph.isBlank

/-- The maximal runs of glyphs that are no blanks. -/
def runs : List Glyph → List (List Glyph)
  | [] => []
  | g :: rest =>
    if g.isBlank then runs rest
    else match rest with
      | [] => [[g]]
      | next :: _ =>
        if next.isBlank then [g] :: runs rest
        else match runs rest with
          | [] => [[g]]
          | word :: more => (g :: word) :: more

/-- The words of a text: its maximal runs of glyphs that are no blanks. -/
def words (t : Text) : List Text := (runs t.glyphs).map ofGlyphs

end JvmLinkage.Text
