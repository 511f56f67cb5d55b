import JvmLinkage.Duration
import JvmLinkage.Report.Group
import JvmLinkage.Text.Layout

/-!
# Bars and charts

Shares are shown as bars of filled and empty cells. Terminals that declare no support for more than
ASCII get plain signs.
-/

namespace JvmLinkage

/-- The signs of filled and empty cells. -/
structure BarSigns where
  fill : Text
  empty : Text
  deriving DecidableEq, Repr

namespace BarSigns

/-- The signs for terminals with block characters. -/
def blocks : BarSigns := ⟨"█", "░"⟩

/-- The signs for plain terminals. -/
def plain : BarSigns := ⟨"#", "-"⟩

/-- The signs that suit the language settings, taken together, and the kind of terminal. -/
def ofSettings (languages : List Text) (terminal : Text) : BarSigns :=
  let language := Text.concat languages
  if terminal = "dumb" || (!language.isEmpty && !language.upper.contains "UTF") then plain
  else blocks

/-- A bar of filled and empty cells. -/
def bar (s : BarSigns) (filled empty : Nat) : Text :=
  Text.times filled s.fill ++ Text.times empty s.empty

end BarSigns

/-- A share as a whole percentage. -/
def percentText (share : Float) : Text := Text.ofFloat 0 (share * 100.0) ++ "%"

/-- The double nearest to a width. -/
def widthFloat (width : Int) : Float := Duration.nearest width

/-- A share as a bar, or as a percentage where there is no room for one. -/
def progressBar (share : Float) (width : Int) : Text :=
  if width < 4 then percentText share
  else
    let filled := (min (max (Text.wholePart (share * widthFloat width).round) 0) width).toNat
    BarSigns.blocks.bar filled (width.toNat - filled)

/-- A share as a bar before a label, or as what of the two there is room for. -/
def labelledBar (share : Float) (width : Int) (label : Text) : Text :=
  if width < 10 then percentText share
  else
    let room := width - label.length - 1
    if room < 4 then label else progressBar share room ++ " " ++ label

/-- The signs of the rows of a chart. -/
def chartSigns : BarSigns := ⟨"█", "▱"⟩

/-- The width of labels in a chart. -/
def chartLabelWidth : Int := 24

/-- A row of a chart: label, bar, number and percentage. A row for a negative label width does not
exist. -/
def chartRow? (label : Text) (value total width labelWidth : Int) : Option Text := do
  let label ← label.truncate? labelWidth
  let share : Float :=
    if total > 0 then Duration.nearest value / Duration.nearest total * 100.0 else 0.0
  let filled := max 1 (Text.wholePart (share * widthFloat width / 100.0))
  let empty := max 0 (width - filled)
  return label.padRight labelWidth.toNat ++ " │" ++ chartSigns.bar filled.toNat empty.toNat ++ "│ "
    ++ Text.ofInt value ++ " (" ++ (Text.ofFloat 1 share).padLeft 4 ++ "%)"

/-- The sum of the values, in sixty-four bits. -/
def tallyTotal (tallies : List Tally) : Int := (tallies.foldl (fun n t => n + t.value) 0 : Int).bmod 0x10000000000000000

/-- A chart with a title and at most `limit` rows; a line tells how many were left out. -/
def chartLines? (title : Text) (tallies : List Tally) (width limit : Int) : Option (List Text) := do
  let total := tallyTotal tallies
  let area := max (width - chartLabelWidth - 16) 4
  let isCut := 0 ≤ limit && limit < tallies.length
  let shown := if isCut then tallies.take limit.toNat else tallies
  let rows ← shown.mapM fun t => chartRow? t.label t.value total area chartLabelWidth
  let rest : List Text :=
    if isCut then ["… " ++ Text.ofInt (tallies.length - limit) ++ " more"] else []
  return title :: [] :: rows ++ rest

end JvmLinkage
