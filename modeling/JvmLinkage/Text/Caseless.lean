import JvmLinkage.Text.Utf8

/-!
# Comparison without regard to case

Names in settings and manifests are compared without regard to case. The names themselves are
written in basic letters, so that a character matters only if it folds to one: besides the two
cases of a letter these are the long s and the sign for kelvin.
-/

namespace JvmLinkage.Text

/-- The small basic letter that a character folds to; every other character stays. -/
def foldCase (c : Char) : Char :=
  if c = 'ſ' then 's'
  else if c = Char.ofNat 0x212A then 'k'
  else c.toLower

/-- Whether a text is `name` up to the case of letters; `name` is in basic characters. -/
def isCaseless (t name : Text) : Bool := t.chars.map foldCase = name.chars.map foldCase

end JvmLinkage.Text
