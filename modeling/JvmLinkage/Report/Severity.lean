import JvmLinkage.Linkage.Conflict
import JvmLinkage.Text.Lowercase

/-!
# Severity

How grave a finding is, with the sign and the colour that stand for it.
-/

namespace JvmLinkage

/-- How grave a finding is. -/
inductive Severity where
  | critical | warning | info | good
  deriving DecidableEq, Repr, Inhabited

namespace Severity

/-- The name of a severity. -/
def name : Severity → Text
  | critical => "critical"
  | warning => "warning"
  | info => "info"
  | good => "good"

/-- The severity with a name, whatever the case of its letters; every other name is good. -/
def ofName (t : Text) : Severity :=
  ([critical, warning, info].find? fun s => s.name = t.lower).getD good

/-- The sign of a severity. -/
def icon : Severity → Text
  | critical => "🔴"
  | warning => "⚠️"
  | info => "ℹ️"
  | good => "✅"

/-- The foreground colour of a severity. -/
def colour : Severity → Text
  | critical => "#CC3333"
  | warning => "#FF8800"
  | info => "#4682B4"
  | good => "#228B22"

/-- Whether a severity is shown in bold letters. -/
def isBold : Severity → Bool
  | info => false
  | _ => true

/-- The severity of conflicts of a category. -/
def ofCategory : Category → Severity
  | .classNotFound | .methodNotFound => critical
  | _ => warning

end Severity

end JvmLinkage
