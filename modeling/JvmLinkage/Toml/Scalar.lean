import JvmLinkage.Text.Numeral

/-!
# Scalars of TOML

A scalar that is no text is one word: a truth value, a whole number, a floating-point number, or a
date and time. Whole numbers have a value; of the others only whether they are well formed matters.
-/

namespace JvmLinkage.Toml

/-- A scalar other than a text. -/
inductive Scalar where
  | boolean (b : Bool)
  | integer (n : Int)
  | float
  | dateTime
  deriving DecidableEq, Repr, Inhabited

namespace Scalar

/-- Whether the octet is a hexadecimal digit. -/
def isHexDigit (b : UInt8) : Bool := (Numeral.digitValue? b).any (· < 16)

/-- Whether every underscore follows a digit and the last octet is one. -/
def underscoresFit : (afterDigit : Bool) → Text → Bool
  | afterDigit, [] => afterDigit
  | afterDigit, b :: rest =>
    if b = Ascii.underscore && !afterDigit then false else underscoresFit (isHexDigit b) rest

/-- Whether a number starts with a zero that does not belong there. -/
def hasLeadingZero : Text → Bool
  | 0x30 :: b :: _ => !(b = 0x62 || b = 0x6F || b = 0x78)
  | 0x2B :: 0x30 :: _ :: _ | 0x2D :: 0x30 :: _ :: _ => true
  | _ => false

/-- The value of a whole number of sixty-four bits. -/
def integer? (t : Text) : Option Int :=
  if underscoresFit false t && !hasLeadingZero t then (Text.toIntLiteral t).toOption else none

/-! ## Floating-point numbers -/

/-- The words for what is no finite number, without a sign. -/
def specialFloats : List Text := ["inf", "nan"]

/-- The text after a sign, if there is one. -/
def unsigned (t : Text) : Text :=
  match t with
  | 0x2B :: rest | 0x2D :: rest => rest
  | _ => t

/-- The digits at the front of a text and what follows them. -/
def digits (t : Text) : Text × Text := (t.takeWhile Ascii.isDigit, t.dropWhile Ascii.isDigit)

/-- The parts of a number between points and marks of exponents, empty ones left out. -/
def floatParts (t : Text) : List Text :=
  let isBetween (b : UInt8) : Bool := b = Ascii.dot || b = 0x65 || b = 0x45
  (t.foldr (fun b parts =>
    match parts with
    | [] => [[b]]
    | part :: more => if isBetween b then [] :: part :: more else (b :: part) :: more) [[]]).filter
      fun part => !part.isEmpty

/-- The value of the digits of an exponent. Digits after it has reached ten thousand, which is beyond
all floats, do not count. -/
def exponentValue (number : Text) : Nat :=
  number.foldl (fun n b => if n < 10000 then n * 10 + Text.digitsValue [b] else n) 0

/-- The exponent after its mark. -/
def exponent? : Text → Option Int
  | [] => some 0
  | b :: rest =>
    if b = 0x65 || b = 0x45 then
      let number := unsigned rest
      if number.isEmpty || !number.all Ascii.isDigit then none
      else
        let n := exponentValue number
        some (if rest.head? = some Ascii.hyphen then -(n : Int) else n)
    else none

/-- The least number that is too great for a float of sixty-four bits. -/
def floatLimit : Nat := 1 <<< 1024 - 1 <<< 970

/-- Whether a whole number, given by its digits, times a power of ten is less than the limit. The
number of digits settles it unless it is near that of the limit. -/
def fitsFloat (number : Text) (exponent : Int) : Bool :=
  let number := number.dropWhile (· = 0x30)
  let size : Int := number.length + exponent
  if number.isEmpty || size < 300 then true
  else if 320 < size then false
  else if 0 ≤ exponent then Text.digitsValue number * Nat.pow 10 exponent.toNat < floatLimit
  else Text.digitsValue number < floatLimit * Nat.pow 10 (-exponent).toNat

/-- Whether a text is a finite floating-point number: digits, and then a fraction, an exponent or
both. -/
def isFiniteFloat (t : Text) : Bool :=
  let plain := unsigned (t.filter (· ≠ Ascii.underscore))
  let (whole, rest) := digits plain
  let (fraction, rest, isFraction) := match rest with
    | 0x2E :: rest => ((digits rest).1, (digits rest).2, true)
    | _ => ([], rest, false)
  let fits := match exponent? rest with
    | some e => fitsFloat (whole ++ fraction) (e - fraction.length)
    | none => false
  !whole.isEmpty && (!isFraction || !fraction.isEmpty) && (isFraction || !rest.isEmpty) && fits
    && (floatParts t).all (underscoresFit false) && !(floatParts t).head?.any hasLeadingZero

/-- Whether a text is a floating-point number. -/
def isFloat (t : Text) : Bool := specialFloats.contains (unsigned t) || isFiniteFloat t

/-! ## Dates and times -/

/-- The number of two digits at the front, if it is less than a bound, and what follows it. -/
def twoDigits? (bound : Nat) : Text → Option (Nat × Text)
  | a :: b :: rest =>
    let n := Text.digitsValue [a, b]
    if Ascii.isDigit a && Ascii.isDigit b && n < bound then some (n, rest) else none
  | _ => none

/-- What follows one given octet. -/
def after? (b : UInt8) : Text → Option Text
  | c :: rest => if c = b then some rest else none
  | [] => none

/-- The number of days of a month. -/
def daysIn (year month : Nat) : Nat :=
  if month = 2 then
    if year % 4 = 0 && (year % 100 ≠ 0 || year % 400 = 0) then 29 else 28
  else if [4, 6, 9, 11].contains month then 30
  else 31

/-- What follows the date at the front. -/
def afterDate? (t : Text) : Option Text := do
  let (century, rest) ← twoDigits? 100 t
  let (year, rest) ← twoDigits? 100 rest
  let (month, rest) ← twoDigits? 13 (← after? Ascii.hyphen rest)
  let (day, rest) ← twoDigits? 32 (← after? Ascii.hyphen rest)
  if month = 0 || day = 0 || daysIn (century * 100 + year) month < day then none else some rest

/-- What follows the seconds and their fraction, which may be left out. -/
def afterSeconds? (t : Text) : Option Text :=
  match t with
  | 0x3A :: rest => do
    let (_, rest) ← twoDigits? 60 rest
    match rest with
    | 0x2E :: fraction =>
      if (digits fraction).1.isEmpty then none else some (digits fraction).2
    | _ => some rest
  | _ => some t

/-- What follows the time at the front. -/
def afterTime? (t : Text) : Option Text := do
  let (_, rest) ← twoDigits? 24 t
  let (_, rest) ← twoDigits? 60 (← after? Ascii.colon rest)
  afterSeconds? rest

/-- Whether a text is nothing or the offset of a zone. -/
def isZone (t : Text) : Bool :=
  match t with
  | [] => true
  | b :: rest =>
    if b = 0x5A || b = 0x7A then rest.isEmpty
    else if b = Ascii.plus || b = Ascii.hyphen then
      (do
        let (_, rest) ← twoDigits? 25 rest
        let (_, rest) ← twoDigits? 61 (← after? Ascii.colon rest)
        return rest.isEmpty : Option Bool).getD false
    else false

/-- Whether the octet stands between a date and a time. -/
def isDateSeparator (b : UInt8) : Bool := b = 0x54 || b = 0x74 || b = Ascii.space

/-- Whether a text is a date, a time, or both with or without a zone. -/
def isDateTime (t : Text) : Bool :=
  match afterDate? t with
  | some [] => true
  | some (b :: rest) => isDateSeparator b && ((afterTime? rest).map isZone).getD false
  | none => afterTime? t = some []

/-! ## Words -/

/-- The scalar of a word. -/
def ofWord? (t : Text) : Option Scalar :=
  if t = "true" then some (.boolean true)
  else if t = "false" then some (.boolean false)
  else match integer? t with
    | some n => some (.integer n)
    | none =>
      if isFloat t then some .float
      else if isDateTime t then some .dateTime
      else none

end Scalar

end JvmLinkage.Toml
