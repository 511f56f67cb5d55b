/-!
# Cycling through numbered choices

Choices are numbered from zero to a last one, and stepping past either end comes in at the other.
Numbers have sixty-four bits.
-/

namespace JvmLinkage.Sequence

/-- A number brought into the range from zero to `last`. There is none when `last + 1` is zero. -/
def wrap? (value last : Int64) : Option Int64 :=
  let n := last + 1
  if n = 0 then none else some ((value % n + n) % n)

/-- The number after `current`. -/
def next? (current last : Int64) : Option Int64 := wrap? (current + 1) last

/-- The number before `current`. -/
def previous? (current last : Int64) : Option Int64 := wrap? (current - 1) last

/-- The number `step` places on. -/
def advance? (current step last : Int64) : Option Int64 := wrap? (current + step) last

/-- The numbers met on a walk of steps. -/
def walk? (current last : Int64) : List Int64 → Option (List Int64)
  | [] => some []
  | step :: steps => do
    let value ← advance? current step last
    let rest ← walk? value last steps
    return value :: rest

end JvmLinkage.Sequence
