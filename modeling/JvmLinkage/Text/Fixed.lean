import JvmLinkage.Text.Decimal

/-!
# Fixed-point text of binary fractions

A double is taken at its exact value, scaled by a power of ten and rounded to a whole number; a half
goes to the even neighbour. The digits of that number, with a point put in, are the text.
-/

namespace JvmLinkage.Text

/-- The quotient rounded to the nearest whole number, a half to the even one. -/
def roundDiv (n d : Nat) : Nat :=
  let q := n / d
  let twice := 2 * (n % d)
  if twice < d then q else if d < twice then q + 1 else if q % 2 = 0 then q else q + 1

/-- The bit of a significand that is not written. -/
def hiddenBit : Nat := 0x10000000000000

/-- The size of a double as a fraction: numerator and denominator of its absolute value. There is
none for what is no number. -/
def magnitude? (x : Float) : Option (Nat × Nat) :=
  let bits := x.toBits.toNat
  let exponent := bits / hiddenBit % 0x800
  let fraction := bits % hiddenBit
  if exponent = 2047 then none
  else if exponent = 0 then some (fraction, 1 <<< 1074)
  else
    let significand := hiddenBit + fraction
    if exponent < 1075 then some (significand, 1 <<< (1075 - exponent))
    else some (significand <<< (exponent - 1075), 1)

/-- Whether the sign bit of a double is set. -/
def isNegative (x : Float) : Bool := 0x8000000000000000 ≤ x.toBits.toNat

/-- The whole number below `n / 10 ^ places` and the digits after the point. -/
def pointed (places n : Nat) : Text :=
  if places = 0 then ofNat n
  else
    let scale := Nat.pow 10 places
    let digits := ofNat (n % scale)
    ofNat (n / scale) ++ Ascii.dot :: List.replicate (places - digits.length) 0x30 ++ digits

/-- The text of a double with a fixed number of places. -/
def ofFloat (places : Nat) (x : Float) : Text :=
  match magnitude? x with
  | some (n, d) =>
    let digits := pointed places (roundDiv (n * Nat.pow 10 places) d)
    if isNegative x then Ascii.hyphen :: digits else digits
  | none =>
    if x.toBits.toNat % hiddenBit = 0 then (if isNegative x then "-Inf" else "+Inf") else "NaN"

/-- The least whole number of sixty-four bits. -/
def leastWhole : Int := -0x8000000000000000

/-- The whole part of a double in sixty-four bits; the least number stands for what does not fit. -/
def wholePart (x : Float) : Int :=
  match magnitude? x with
  | some (n, d) =>
    let whole : Int := if isNegative x then -(n / d : Nat) else (n / d : Nat)
    if leastWhole ≤ whole && whole < -leastWhole then whole else leastWhole
  | none => leastWhole

end JvmLinkage.Text
