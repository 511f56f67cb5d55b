import JvmLinkage.Text.Basic

/-!
# Numbers in text

Decimal and hexadecimal digits, and the reading of whole numbers and truth values from settings,
whose failures name the text that could not be read.
-/

namespace JvmLinkage.Text

/-- The digit of a value below sixteen, letters small. -/
def hexDigit (n : Nat) : UInt8 := if n < 10 then 0x30 + n.toUInt8 else 0x57 + n.toUInt8

/-- The lowest `count` hexadecimal digits of a number, highest first. -/
def hex : (count n : Nat) → Text
  | 0, _ => []
  | count + 1, n => hex count (n / 16) ++ [hexDigit (n % 16)]

@[simp] theorem length_hex (count n : Nat) : (hex count n).length = count := by
  induction count generalizing n with
  | zero => rfl
  | succ count ih => simp [hex, ih]

/-- The digits of a number in base ten, highest first. -/
def ofNat (n : Nat) : Text := (Nat.toDigits 10 n).map fun c => c.toNat.toUInt8

/-- The digits of an integer in base ten, after a hyphen when it is negative. -/
def ofInt : Int → Text
  | .ofNat n => ofNat n
  | .negSucc n => Ascii.hyphen :: ofNat (n + 1)

/-- The value of a run of digits. -/
def digitsValue (t : Text) : Nat := t.foldl (fun n b => n * 10 + (b.toNat - 0x30)) 0

end JvmLinkage.Text
