import JvmLinkage.Text.Quoted

/-!
# Reading numbers and truth values

Settings and options give whole numbers of sixty-four bits and truth values as texts. A failure
names the text that could not be read and the way in which it was read.
-/

namespace JvmLinkage

/-- The ways of reading a text as a value. -/
inductive Reading where
  | decimal | literal | truth
  deriving DecidableEq, Repr, Inhabited

/-- The name under which failures mention a way of reading. -/
def Reading.label : Reading → Text
  | decimal => "strconv.Atoi"
  | literal => "strconv.ParseInt"
  | truth => "strconv.ParseBool"

/-- Why a text is no value. -/
inductive NumeralReason where
  | malformed | outOfRange
  deriving DecidableEq, Repr, Inhabited

/-- The words for a reason. -/
def NumeralReason.shown : NumeralReason → Text
  | malformed => "invalid syntax"
  | outOfRange => "value out of range"

/-- A text that could not be read as a value. -/
structure NumeralFailure where
  reading : Reading
  text : Text
  reason : NumeralReason
  deriving DecidableEq, Repr, Inhabited

/-- The message of a failure. -/
def NumeralFailure.message (f : NumeralFailure) : Text :=
  f.reading.label ++ ": parsing " ++ f.text.quoted ++ ": " ++ f.reason.shown

namespace Numeral

/-- The greatest magnitude that can be read at all. -/
def greatestMagnitude : Nat := 0xFFFFFFFFFFFFFFFF

/-- The value of a digit, letters counting on from ten. -/
def digitValue? (b : UInt8) : Option Nat :=
  if Ascii.isDigit b then some (b.toNat - 0x30)
  else if Ascii.isLetter b then some ((Ascii.toLower b).toNat - 0x61 + 10)
  else none

/-- The magnitude of digits of a base, read on from `n`; the first octet at fault decides. -/
def magnitudeFrom (base : Nat) (skipped : UInt8 → Bool) : (n : Nat) → Text → Except NumeralReason Nat
  | n, [] => .ok n
  | n, b :: rest =>
    if skipped b then magnitudeFrom base skipped n rest
    else match digitValue? b with
      | none => .error .malformed
      | some d =>
        if base ≤ d then .error .malformed
        else if greatestMagnitude < n * base + d then .error .outOfRange
        else magnitudeFrom base skipped (n * base + d) rest

/-- The base that a marker announces and the digits after it. -/
def announcedBase (t : Text) : Nat × Text :=
  match t with
  | 0x30 :: m :: d :: rest =>
    let marker := Ascii.toLower m
    if marker = 0x62 then (2, d :: rest)
    else if marker = 0x6F then (8, d :: rest)
    else if marker = 0x78 then (16, d :: rest)
    else (8, m :: d :: rest)
  | 0x30 :: rest => (8, rest)
  | _ => (10, t)

/-- Whether every underscore stands between two digits; `afterDigit` tells what stands before. -/
def separatesDigits (isDigit : UInt8 → Bool) : (afterDigit : Bool) → Text → Bool
  | _, [] => true
  | afterDigit, b :: rest =>
    if b = Ascii.underscore then
      match rest with
      | next :: _ => afterDigit && isDigit next && separatesDigits isDigit false rest
      | [] => false
    else separatesDigits isDigit (isDigit b) rest

/-- Whether the underscores of a literal stand where they may: a base marker counts as a digit. -/
def underscoresFit (t : Text) : Bool :=
  let isHexDigit (b : UInt8) : Bool := (digitValue? b).any (· < 16)
  match t with
  | 0x30 :: m :: rest =>
    let marker := Ascii.toLower m
    if marker = 0x78 then separatesDigits isHexDigit true rest
    else if marker = 0x62 || marker = 0x6F then separatesDigits Ascii.isDigit true rest
    else separatesDigits Ascii.isDigit false t
  | _ => separatesDigits Ascii.isDigit false t

/-- The magnitude of decimal digits. -/
def decimalMagnitude (t : Text) : Except NumeralReason Nat := magnitudeFrom 10 (fun _ => false) 0 t

/-- The magnitude of a literal, which may announce a base and separate its digits. -/
def literalMagnitude (t : Text) : Except NumeralReason Nat := do
  let (base, digits) := announcedBase t
  let n ← magnitudeFrom base (· = Ascii.underscore) 0 digits
  if List.contains t Ascii.underscore && !underscoresFit t then throw .malformed
  return n

/-- The integer of a sign and a magnitude, which has to fit sixty-four bits. -/
def signed (magnitude : Text → Except NumeralReason Nat) (t : Text) : Except NumeralReason Int := do
  let (negative, digits) := match t with
    | 0x2B :: rest => (false, rest)
    | 0x2D :: rest => (true, rest)
    | _ => (false, t)
  if digits.isEmpty then throw .malformed
  let n ← magnitude digits
  if negative then
    if n ≤ 0x8000000000000000 then return -(n : Int) else throw .outOfRange
  else
    if n < 0x8000000000000000 then return n else throw .outOfRange

/-- The texts that stand for truth. -/
def truths : List Text := ["1", "t", "T", "true", "TRUE", "True"]

/-- The texts that stand for falsehood. -/
def falsehoods : List Text := ["0", "f", "F", "false", "FALSE", "False"]

end Numeral

namespace Text

/-- The integer of a sign and decimal digits. -/
def toInt (t : Text) : Except NumeralFailure Int :=
  (Numeral.signed Numeral.decimalMagnitude t).mapError fun reason => ⟨.decimal, t, reason⟩

/-- The integer of a literal. -/
def toIntLiteral (t : Text) : Except NumeralFailure Int :=
  (Numeral.signed Numeral.literalMagnitude t).mapError fun reason => ⟨.literal, t, reason⟩

/-- The truth value of a word. -/
def toTruth (t : Text) : Except NumeralFailure Bool :=
  if t ∈ Numeral.truths then .ok true
  else if t ∈ Numeral.falsehoods then .ok false
  else .error ⟨.truth, t, .malformed⟩

end Text

end JvmLinkage
