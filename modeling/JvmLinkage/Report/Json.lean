import JvmLinkage.Report.Group

/-!
# The report as JSON

Members keep their order, each on a line of its own, indented by two spaces. Texts are escaped so
that they can stand in a web page: angle brackets, ampersands and line separators are written as
code points.
-/

namespace JvmLinkage.Report

/-- A JSON value; the members of an object keep their order. -/
inductive JsonValue where
  | text (t : Text)
  | number (n : Int)
  | array (items : List JsonValue)
  | object (members : List (Text × JsonValue))

namespace JsonValue

/-- A character inside a JSON text. -/
def escapeChar (c : Char) : Text :=
  let n := c.toNat
  match n with
  | 0x22 => "\\\""
  | 0x5C => "\\\\"
  | 0x08 => "\\b"
  | 0x0C => "\\f"
  | 0x0A => "\\n"
  | 0x0D => "\\r"
  | 0x09 => "\\t"
  | _ =>
    if n < 0x20 || n = 0x3C || n = 0x3E || n = 0x26 || n = 0x2028 || n = 0x2029 then
      "\\u" ++ Text.hex 4 n
    else String.utf8EncodeChar c

/-- A glyph inside a JSON text. -/
def escape : Text.Glyph → Text
  | .char c => escapeChar c
  | .stray _ => "\\ufffd"

/-- A JSON text. -/
def quote (t : Text) : Text := Ascii.quote :: t.glyphs.flatMap escape ++ [Ascii.quote]

/-- A line break and the indentation of a depth. -/
def lineBreak (depth : Nat) : Text := Ascii.newline :: Text.spaces (2 * depth)

/-- Lines between brackets, or the brackets alone when there are none. -/
def block (opening closing : UInt8) (depth : Nat) (lines : List Text) : Text :=
  if lines.isEmpty then [opening, closing]
  else
    opening :: Text.join [Ascii.comma] (lines.map (lineBreak (depth + 1) ++ ·)) ++ lineBreak depth
      ++ [closing]

mutual

/-- The text of a value at a depth. -/
def render (depth : Nat) : JsonValue → Text
  | text t => quote t
  | number n => Text.ofInt n
  | array items => block Ascii.openBracket Ascii.closeBracket depth (renderItems (depth + 1) items)
  | object members =>
    block Ascii.openBrace Ascii.closeBrace depth (renderMembers (depth + 1) members)

/-- The texts of the items of an array. -/
def renderItems (depth : Nat) : List JsonValue → List Text
  | [] => []
  | item :: items => render depth item :: renderItems depth items

/-- The texts of the members of an object. -/
def renderMembers (depth : Nat) : List (Text × JsonValue) → List Text
  | [] => []
  | (name, value) :: members =>
    (quote name ++ ": " ++ render depth value) :: renderMembers depth members

end

end JsonValue

/-- The members of an object. -/
abbrev Members := List (Text × JsonValue)

/-- A member that is left out when its text is empty. -/
def optionalText (name value : Text) : Members :=
  if value.isEmpty then [] else [(name, .text value)]

/-- What a conflict says about the referring end. -/
def sourceMembers (c : Conflict) : Members :=
  let d := c.dependency
  [("category", .text c.category.shown), ("reason", .text c.reason), ("usedBy", .text c.usedBy),
    ("existsIn", .text c.existsIn), ("sourceClass", .text d.fromClass.dotted),
    ("sourceMethod", .text d.fromMethod.shownCall)]

/-- The line of a conflict, which is left out when it is not known. -/
def lineMembers (line : Int) : Members := if line = 0 then [] else [("line", .number line)]

/-- What a conflict says about the end referred to. -/
def targetMembers (d : Dependency) : Members :=
  let owner : Members := [("targetClass", .text d.targetClass.dotted)]
  owner ++ optionalText "targetMethod" ((d.targetMethod.map Method.shown).getD [])
    ++ optionalText "targetField" ((d.targetField.map Field.name).getD [])
    ++ optionalText "targetFieldType" ((d.targetField.map fun f => f.type.shown).getD [])

/-- The value of a conflict. -/
def conflictValue (c : Conflict) : JsonValue :=
  .object (sourceMembers c ++ lineMembers c.dependency.line ++ targetMembers c.dependency)

/-- The value of a report. -/
def jsonValue (s : Summary) (conflicts : List Conflict) : JsonValue :=
  .object
    [("project", .text s.project),
      ("summary", .object
        [("artifacts", .array (s.checked.map .text)), ("knownClasses", .number s.known),
          ("reachableClasses", .number s.reachable), ("checkedClasses", .number s.classes),
          ("conflicts", .number conflicts.length), ("filtered", .number s.filtered),
          ("elapsedMillis", .number s.elapsed.millis)]),
      ("conflicts", .array (conflicts.map conflictValue))]

/-- The report as one JSON text, with a line break at its end. -/
def json (s : Summary) (conflicts : List Conflict) : Text :=
  (jsonValue s conflicts).render 0 ++ "\n"

end JvmLinkage.Report
