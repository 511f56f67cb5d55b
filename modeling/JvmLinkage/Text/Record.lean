import JvmLinkage.Text.Decimal

/-!
# Records with commas

A text that lists several texts separates them by commas. One that starts with a quotation mark goes
on to the next mark that stands alone; there a mark is written twice. Only the first line that is
not empty counts, and the lines that a quoted text takes it on to.
-/

namespace JvmLinkage

/-- What is wrong with a quotation mark in a record. -/
inductive RecordFault where
  | bareMark | strayMark
  deriving DecidableEq, Repr

/-- The words for a fault. -/
def RecordFault.shown : RecordFault → Text
  | bareMark => "bare \" in non-quoted-field"
  | strayMark => "extraneous or missing \" in quoted-field"

/-- A place in a text, both numbers counted from one. -/
structure RecordPlace where
  line : Nat
  column : Nat
  deriving DecidableEq, Repr

/-- Why a text is no record. -/
inductive RecordFailure where
  | empty
  | faulty (start : Nat) (place : RecordPlace) (fault : RecordFault)
  deriving DecidableEq, Repr

/-- The message of a failure. -/
def RecordFailure.message : RecordFailure → Text
  | empty => "EOF"
  | faulty start place fault =>
    let head : Text := if start = place.line then [] else "record on line " ++ Text.ofNat start ++ "; "
    head ++ "parse error on line " ++ Text.ofNat place.line ++ ", column "
      ++ Text.ofNat place.column ++ ": " ++ fault.shown

namespace RecordPlace

/-- The place after one more octet; a line end counts for its line when nothing follows it. -/
def next (p : RecordPlace) (b : UInt8) (rest : Text) : RecordPlace :=
  if b = Ascii.newline && !rest.isEmpty then ⟨p.line + 1, 1⟩ else ⟨p.line, p.column + 1⟩

end RecordPlace

namespace Record

/-- The text with line ends of two octets made one, and without a carriage return at its end. -/
def normal : Text → Text
  | [] => []
  | 0x0D :: 0x0A :: rest => 0x0A :: normal rest
  | [0x0D] => []
  | b :: rest => b :: normal rest

/-- Where the reading of a record stands: at the start of a part, within one without marks, within
a quoted one, or after a mark in a quoted one. -/
inductive Stage where
  | start | bare | quoted | afterMark
  deriving DecidableEq, Repr

/-- The parts of a record from a stage on; `part` holds the octets of the current part, last first,
and `place` is where the text goes on. -/
def parts (start : Nat) :
    Stage → (part : Text) → (place : RecordPlace) → Text → Except RecordFailure (List Text)
  | .quoted, _, place, [] => .error (.faulty start place .strayMark)
  | _, part, _, [] => .ok [part.reverse]
  | .quoted, part, place, b :: rest =>
    let place' := place.next b rest
    if b = Ascii.quote then parts start .afterMark part place' rest
    else parts start .quoted (b :: part) place' rest
  | stage, part, place, b :: rest =>
    let place' := place.next b rest
    if b = Ascii.comma then (part.reverse :: ·) <$> parts start .start [] place' rest
    else if b = Ascii.newline then .ok [part.reverse]
    else match stage with
      | .afterMark =>
        if b = Ascii.quote then parts start .quoted (b :: part) place' rest
        else .error (.faulty start ⟨place.line, place.column - 1⟩ .strayMark)
      | .start =>
        if b = Ascii.quote then parts start .quoted [] place' rest
        else parts start .bare [b] place' rest
      | _ =>
        if b = Ascii.quote then .error (.faulty start place .bareMark)
        else parts start .bare (b :: part) place' rest

/-- The record at the front of a text after `skipped` empty lines. -/
def firstFrom : (skipped : Nat) → Text → Except RecordFailure (List Text)
  | _, [] => .error .empty
  | skipped, 0x0A :: rest => firstFrom (skipped + 1) rest
  | skipped, t => parts (skipped + 1) .start [] ⟨skipped + 1, 1⟩ t

/-- The parts of a text; an empty text has none. -/
def parse (t : Text) : Except RecordFailure (List Text) :=
  if t.isEmpty then .ok [] else firstFrom 0 (normal t)

end Record

end JvmLinkage
