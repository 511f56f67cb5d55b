import JvmLinkage.Text.Fixed

/-!
# Durations

Durations count nanoseconds. They are shown with one unit of precision that suits their size.
-/

namespace JvmLinkage

/-- A span of time in nanoseconds. -/
structure Duration where
  nanos : Int
  deriving DecidableEq, Repr, Inhabited

namespace Duration

/-- The double nearest to an integer of sixty-four bits. -/
def nearest (n : Int) : Float := (Int64.ofInt n).toFloat

/-- Whole milliseconds, rounded toward zero. -/
def millis (d : Duration) : Int := d.nanos.tdiv 1000000

/-- The duration as shown to a reader. -/
def shown (d : Duration) : Text :=
  let n := d.nanos
  if n < 1000000 then Text.ofFloat 1 (nearest n / 1000.0) ++ "μs"
  else if n < 1000000000 then Text.ofFloat 1 (nearest n / 1000000.0) ++ "ms"
  else if n < 60000000000 then
    Text.ofFloat 1 (nearest (n / 1000000000) + nearest (n % 1000000000) / 1000000000.0) ++ "s"
  else if n < 3600000000000 then
    let seconds := n / 1000000000
    Text.ofInt (seconds / 60) ++ "m " ++ Text.ofInt (seconds % 60) ++ "s"
  else
    let minutes := n / 60000000000
    Text.ofInt (minutes / 60) ++ "h " ++ Text.ofInt (minutes % 60) ++ "m"

end Duration

end JvmLinkage
