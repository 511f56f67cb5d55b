import JvmLinkage.Text.Basic

/-!
# Distance of texts

The number of octets to put in, take out or replace in order to make one text of another.
-/

namespace JvmLinkage.Text

/-- The next row of distances: `left` is the distance just found and `diagonal` the one above it. -/
def distanceRow (b : UInt8) : (left diagonal : Nat) → (above : List Nat) → Text → List Nat
  | left, diagonal, up :: above, c :: t =>
    let here := if b = c then diagonal else min (min left up) diagonal + 1
    here :: distanceRow b here up above t
  | _, _, _, _ => []

/-- The distances of a text from the beginnings of another, shortest first. -/
def distances (t : Text) (s : Text) : List Nat :=
  s.foldl (fun row b =>
    match row with
    | first :: above => (first + 1) :: distanceRow b (first + 1) first above t
    | [] => []) (List.range (t.length + 1))

/-- The distance of two texts. -/
def distance (s t : Text) : Nat := (distances t s).getLast?.getD 0

end JvmLinkage.Text
