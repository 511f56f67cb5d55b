import JvmLinkage.Text.Blank

/-!
# Environment files

An environment file assigns values to variables, one on a line. A value is quoted or goes to the
end of the line or to a comment; between double quotation marks and without marks it may refer to
variables assigned before it.
-/

namespace JvmLinkage

/-- The values of variables; of two entries for one variable the first counts. -/
abbrev Environment := List (Text × Text)

/-- The value of a variable, if it has one. -/
def Environment.get? (env : Environment) (name : Text) : Option Text := env.lookup name

/-- The value of a variable, empty if it has none. -/
def Environment.get (env : Environment) (name : Text) : Text := (env.get? name).getD []

namespace EnvironmentFile

/-! ## Characters -/

/-- Whether the character is a blank within a line. -/
def isInlineBlank (c : Char) : Bool :=
  let n := c.toNat
  n = 0x09 || n = 0x0B || n = 0x0C || n = 0x0D || n = 0x20 || n = 0x85 || n = 0xA0

/-- Whether the glyph is a blank within a line. -/
def isInlineGlyph : Text.Glyph → Bool
  | .char c => isInlineBlank c
  | .stray _ => false

/-- The text after the glyphs at its front that satisfy `p`. -/
def trimFront (p : Text.Glyph → Bool) (t : Text) : Text := Text.ofGlyphs (t.glyphs.dropWhile p)

/-- The text before the glyphs at its end that satisfy `p`. -/
def trimEnd (p : Text.Glyph → Bool) (t : Text) : Text :=
  Text.ofGlyphs ((t.glyphs.reverse.dropWhile p).reverse)

/-- Whether an octet, taken as a character of its own, may stand in a name: a letter, a digit or
another number, a dot or an underscore. -/
def isNameOctet (b : UInt8) : Bool :=
  Ascii.isLetter b || Ascii.isDigit b || b = Ascii.dot || b = Ascii.underscore
    || [0xAA, 0xB2, 0xB3, 0xB5, 0xB9, 0xBA, 0xBC, 0xBD, 0xBE].contains b
    || (0xC0 ≤ b && b ≠ 0xD7 && b ≠ 0xF7)

/-! ## Names -/

/-- The text from the next statement on; `inComment` tells that a comment goes on. -/
def statementGlyphs : (inComment : Bool) → List Text.Glyph → List Text.Glyph
  | _, [] => []
  | true, g :: rest => statementGlyphs (g ≠ .char '\n') rest
  | false, g :: rest =>
    if g.isBlank then statementGlyphs false rest
    else if g = .char '#' then statementGlyphs true rest
    else g :: rest

/-- The text from the next statement on. -/
def statementStart (t : Text) : Text := Text.ofGlyphs (statementGlyphs false t.glyphs)

/-- The text without the word that marks a variable for export. -/
def withoutExport (t : Text) : Text :=
  match t.afterStart? "export" with
  | some rest =>
    let trimmed := trimFront isInlineGlyph rest
    if trimmed.length < rest.length then trimmed else t
  | none => t

/-- What a search for the end of a name finds. -/
inductive NameEnd where
  | found (name rest : Text)
  | absent
  | refused

/-- The name up to an equals sign or a colon. -/
def nameEnd : Text → NameEnd
  | [] => .absent
  | b :: rest =>
    if b = Ascii.equals || b = Ascii.colon then .found [] rest
    else if isInlineBlank (Char.ofNat b.toNat) || isNameOctet b then
      match nameEnd rest with
      | .found name rest => .found (b :: name) rest
      | other => other
    else .refused

/-- The name of a variable and the text of its value; a statement without a sign is all value, but
there has to be something. -/
def name? (t : Text) : Option (Text × Text) :=
  let t := withoutExport (trimFront isInlineGlyph t)
  match nameEnd t with
  | .found name rest => some (trimEnd Text.Glyph.isBlank name, trimFront isInlineGlyph rest)
  | .absent => if t.isEmpty then none else some ([], trimFront isInlineGlyph t)
  | .refused => none

/-! ## Values -/

/-- Whether the octet may stand in the name of a variable that is referred to. -/
def isReferenceOctet (b : UInt8) : Bool :=
  Ascii.isUpper b || Ascii.isDigit b || b = Ascii.underscore

/-- The text after an octet at its front, if it is there. -/
def dropOne (b : UInt8) (t : Text) : Text := if t.head? = some b then t.drop 1 else t

/-- The name that a reference names after its dollar sign, and what follows the reference. -/
def reference (t : Text) : Text × Text :=
  let t := dropOne Ascii.openBrace (dropOne Ascii.openParen t)
  (t.takeWhile isReferenceOctet, dropOne Ascii.closeBrace (t.dropWhile isReferenceOctet))

/-- The text with references replaced by values; `skip` octets belong to the last reference. A
backslash keeps a dollar sign from starting a reference and is left out. -/
def expandFrom (env : Environment) : (skip : Nat) → Text → Text
  | _, [] => []
  | skip + 1, _ :: rest => expandFrom env skip rest
  | 0, b :: rest =>
    if b = Ascii.backslash && rest.head? = some Ascii.dollar then
      let (_, after) := reference (rest.drop 1)
      let size := rest.length - after.length
      rest.take size ++ expandFrom env size rest
    else if b = Ascii.dollar then
      let (name, after) := reference rest
      let size := rest.length - after.length
      (if name.isEmpty then b :: rest.take size else env.get name) ++ expandFrom env size rest
    else b :: expandFrom env 0 rest

/-- The text with references replaced by values. -/
def expand (env : Environment) (t : Text) : Text := expandFrom env 0 t

/-- The text with the escapes for line ends replaced. -/
def lineEscapes : Text → Text
  | 0x5C :: 0x6E :: rest => Ascii.newline :: lineEscapes rest
  | 0x5C :: 0x72 :: rest => Ascii.carriageReturn :: lineEscapes rest
  | 0x5C :: b :: rest =>
    if b = Ascii.newline then 0x5C :: lineEscapes (b :: rest) else 0x5C :: b :: lineEscapes rest
  | b :: rest => b :: lineEscapes rest
  | [] => []

/-- The text with the backslashes left out that stand before anything but a dollar sign. -/
def otherEscapes : Text → Text
  | 0x5C :: b :: rest =>
    if b = Ascii.dollar then 0x5C :: otherEscapes (b :: rest) else b :: otherEscapes rest
  | b :: rest => b :: otherEscapes rest
  | [] => []

/-- The octets up to the next mark that no backslash precedes, and what follows it. -/
def quoted? (mark : UInt8) : (previous : UInt8) → Text → Option (Text × Text)
  | _, [] => none
  | previous, b :: rest =>
    if b = mark && previous ≠ Ascii.backslash then some ([], rest)
    else (quoted? mark b rest).map fun (content, rest) => (b :: content, rest)

/-- The text without the marks at both ends. -/
def trimMarks (mark : UInt8) (t : Text) : Text :=
  ((t.dropWhile (· = mark)).reverse.dropWhile (· = mark)).reverse

/-- The glyphs before the last comment, which a blank precedes; `afterBlank` tells what stands before
the first of them. -/
def beforeComment? : (afterBlank : Bool) → List Text.Glyph → Option (List Text.Glyph)
  | _, [] => none
  | afterBlank, g :: rest =>
    match beforeComment? (isInlineGlyph g) rest with
    | some front => some (g :: front)
    | none => if afterBlank && g = .char '#' then some [] else none

/-- The glyphs of a line without its last comment. -/
def withoutComment (line : List Text.Glyph) : List Text.Glyph :=
  (beforeComment? false line).getD line

/-- The value at the front of a text, and what follows it. Without marks, octets that are no UTF-8
are replaced. -/
def value? (env : Environment) (t : Text) : Option (Text × Text) :=
  match t with
  | [] => some ([], [])
  | b :: rest =>
    if b = Ascii.quote || b = Ascii.apostrophe then
      (quoted? b b rest).map fun (content, rest) =>
        let content := trimMarks b content
        (if b = Ascii.quote then expand env (otherEscapes (lineEscapes content)) else content, rest)
    else
      let isLineEnd (b : UInt8) : Bool := b = Ascii.newline || b = Ascii.carriageReturn
      let line := t.takeWhile fun b => !isLineEnd b
      let content := Text.ofChars ((withoutComment (Text.glyphs line)).map Text.Glyph.shown)
      some (expand env (Text.trimBoth isInlineGlyph content), t.dropWhile fun b => !isLineEnd b)

/-! ## Files -/

/-- The assignments of a text after others, latest first; `fuel` bounds their number. -/
def assignments : (fuel : Nat) → Environment → Text → Option Environment
  | 0, _, _ => none
  | fuel + 1, env, t =>
    match statementStart t with
    | [] => some env
    | statement => do
      let (name, rest) ← name? statement
      let (value, rest) ← value? env rest
      assignments fuel ((name, value) :: env) rest

/-- The assignments of a file, latest first. A statement takes an octet at least. -/
def parse? (content : Bytes) : Option Environment :=
  let t := Text.joinLineEnds content
  assignments (t.length + 1) [] t

end EnvironmentFile

end JvmLinkage
