/-!
# Texts

A text is a string of octets. Most texts are UTF-8, but names are cut and joined octet by octet, so
no operation here relies on it, and the order of texts is the order of their octets.
-/

namespace JvmLinkage

/-- The content of a file or of a part of one. -/
abbrev Bytes := List UInt8

/-- A string of octets that stands for readable text. -/
abbrev Text := List UInt8

/-! ## Octets with a meaning of their own -/

namespace Ascii

abbrev tab : UInt8 := 0x09
abbrev newline : UInt8 := 0x0A
abbrev carriageReturn : UInt8 := 0x0D
abbrev space : UInt8 := 0x20
abbrev quote : UInt8 := 0x22
abbrev hash : UInt8 := 0x23
abbrev dollar : UInt8 := 0x24
abbrev apostrophe : UInt8 := 0x27
abbrev openParen : UInt8 := 0x28
abbrev closeParen : UInt8 := 0x29
abbrev plus : UInt8 := 0x2B
abbrev comma : UInt8 := 0x2C
abbrev hyphen : UInt8 := 0x2D
abbrev dot : UInt8 := 0x2E
abbrev slash : UInt8 := 0x2F
abbrev colon : UInt8 := 0x3A
abbrev semicolon : UInt8 := 0x3B
abbrev equals : UInt8 := 0x3D
abbrev capitalL : UInt8 := 0x4C
abbrev openBracket : UInt8 := 0x5B
abbrev backslash : UInt8 := 0x5C
abbrev closeBracket : UInt8 := 0x5D
abbrev underscore : UInt8 := 0x5F
abbrev openBrace : UInt8 := 0x7B
abbrev closeBrace : UInt8 := 0x7D

/-- Whether the octet is a decimal digit. -/
def isDigit (b : UInt8) : Bool := 0x30 ≤ b && b ≤ 0x39

/-- Whether the octet is a capital letter of the basic alphabet. -/
def isUpper (b : UInt8) : Bool := 0x41 ≤ b && b ≤ 0x5A

/-- Whether the octet is a small letter of the basic alphabet. -/
def isLower (b : UInt8) : Bool := 0x61 ≤ b && b ≤ 0x7A

/-- Whether the octet is a letter of the basic alphabet. -/
def isLetter (b : UInt8) : Bool := isUpper b || isLower b

/-- The small form of a basic letter; every other octet stays. -/
def toLower (b : UInt8) : UInt8 := if isUpper b then b + 0x20 else b

/-- The capital form of a basic letter; every other octet stays. -/
def toUpper (b : UInt8) : UInt8 := if isLower b then b - 0x20 else b

end Ascii

namespace Text

/-- The UTF-8 octets of a string. -/
def ofString (s : String) : Text := s.toUTF8.data.toList

instance : Coe String Text := ⟨ofString⟩

/-- The UTF-8 octets of a sequence of characters. -/
def ofChars (cs : List Char) : Text := cs.flatMap String.utf8EncodeChar

/-- The texts one after the other, with a separator between neighbours. -/
def join (separator : Text) (parts : List Text) : Text := separator.intercalate parts

/-- The texts one after the other. -/
def concat (parts : List Text) : Text := parts.flatten

/-- The text `n` times over. -/
def times (n : Nat) (t : Text) : Text := (List.replicate n t).flatten

/-- A line of `n` spaces. -/
def spaces (n : Nat) : Text := List.replicate n Ascii.space

/-- Every occurrence of one octet becomes another. -/
def replace (old new : UInt8) (t : Text) : Text := t.map fun b => if b = old then new else b

/-- Whether `t` begins with `start`. -/
def startsWith (t start : Text) : Bool := start.isPrefixOf t

/-- Whether `t` ends with `tail`. -/
def endsWith (t tail : Text) : Bool := tail.isSuffixOf t

/-- What follows `start` when `t` begins with it. -/
def afterStart? (t start : Text) : Option Text :=
  if t.startsWith start then some (t.drop start.length) else none

/-- What precedes `tail` when `t` ends with it. -/
def beforeEnd? (t tail : Text) : Option Text :=
  if t.endsWith tail then some (t.take (t.length - tail.length)) else none

/-- The part before the first `b` and the part after it. -/
def cut? (b : UInt8) : Text → Option (Text × Text)
  | [] => none
  | c :: t => if c = b then some ([], t) else (cut? b t).map fun (l, r) => (c :: l, r)

/-- The part before the last `b` and the part after it. -/
def cutLast? (b : UInt8) : Text → Option (Text × Text)
  | [] => none
  | c :: t =>
    match cutLast? b t with
    | some (l, r) => some (c :: l, r)
    | none => if c = b then some ([], t) else none

/-- The parts between the occurrences of `b`, of which there is one more than occurrences. -/
def splitOn (b : UInt8) : Text → List Text
  | [] => [[]]
  | c :: t =>
    match splitOn b t with
    | [] => [[c]]
    | part :: parts => if c = b then [] :: part :: parts else (c :: part) :: parts

/-- The text with line ends of two characters made one. -/
def joinLineEnds : Text → Text
  | 0x0D :: 0x0A :: rest => 0x0A :: joinLineEnds rest
  | b :: rest => b :: joinLineEnds rest
  | [] => []

/-- The text with every tab widened to four spaces. -/
def widenTabs (t : Text) : Text := t.flatMap fun b => if b = Ascii.tab then spaces 4 else [b]

/-- Whether `part` occurs in `t`. -/
def contains : (t part : Text) → Bool
  | [], part => part.isEmpty
  | b :: t, part => part.isPrefixOf (b :: t) || contains t part

/-- Basic letters become capital. -/
def upper (t : Text) : Text := t.map Ascii.toUpper

/-- Whether `a` stands before or at the place of `b` in the order of octets. -/
def le (a b : Text) : Bool := (compare a b).isLE

/-- The texts in ascending order. -/
def sort (ts : List Text) : List Text := ts.mergeSort le

end Text

end JvmLinkage
