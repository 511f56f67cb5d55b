import JvmLinkage.Browser.Basic
import JvmLinkage.Display.Detail

/-!
# What the browser shows

The header with the tabs and the main lines of the tab at hand. Showing the details brings the
scroll position back into range.
-/

namespace JvmLinkage.Browser

variable {L : Type}

/-- The sign of a tab. -/
def tabIcon : Tab → Text
  | .dashboard => "📊"
  | .conflicts => "🔗"
  | .details => "🔍"

/-- The name of a tab. -/
def tabName : Tab → Text
  | .dashboard => "Dashboard"
  | .conflicts => "Conflicts"
  | .details => "Details"

/-- The line of tabs, with a mark at the one shown. -/
def headerLine (b : Browser L) : Text :=
  Text.join "  " <| Tab.all.map fun t =>
    let mark : Text := if t = b.tab then "●" else " "
    padded (mark ++ " " ++ tabIcon t ++ " " ++ tabName t ++ " [" ++ Text.ofNat (t.index + 1) ++ "]")

/-- The first line about the project on the dashboard. -/
def projectLine (b : Browser L) : Text :=
  let s := b.input.summary
  let lines := Block.ofText 0 ("Project: " ++ s.project ++ "  Artifacts: "
    ++ Text.ofNat s.checked.length ++ "  Duration: " ++ s.elapsed.shown)
  lines.headD []

/-- The line of categories above the list, with the number of conflicts of each. -/
def categoriesLine (b : Browser L) : Text :=
  let total := "All: " ++ Text.ofNat b.input.conflicts.length
  let tallies := Tally.byCategory b.input.conflicts
  let parts := List.zipWith (fun (c : Category) (t : Tally) =>
    (Severity.ofCategory c).icon ++ " " ++ t.label ++ ": " ++ Text.ofInt t.value)
    Category.all tallies
  Text.join "  " ((total :: parts).map padded)

/-- The lines that stand in place of a list without conflicts. -/
def noConflictLines : List Text :=
  ["✅ No linkage conflicts found!", [], "Every reachable reference resolves against the classpath."]

/-- The line that stands in place of details while no conflict is chosen. -/
def noSelectionLine : Text :=
  "No conflict selected. Pick one on the conflicts tab and press enter."

/-- The items from one position up to another, which have to be in order and in range. -/
def slice? {α : Type} (items : List α) (first last : Int) : Option (List α) :=
  if 0 ≤ first ∧ first ≤ last ∧ last ≤ items.length then
    some (items.extract first.toNat last.toNat)
  else none

/-- The scroll position, brought back if there are not enough rows after it to fill the screen. -/
def clampedScroll (b : Browser L) (rows : Int) : Int :=
  let top := rows - rowsWithin b.height
  if top < b.scroll then max top 0 else b.scroll

/-- The lines of the details tab, and the browser with its scroll position in range. Scrolling counts
rows. -/
def detailsView? (b : Browser L) : Option (List Text × Browser L) :=
  match b.selected with
  | none => some ([noSelectionLine], b)
  | some c =>
    let rows := detailRows c b.input.reachable b.width
    let scroll := b.clampedScroll rows.length
    let last := min (scroll + rowsWithin b.height) rows.length
    (slice? rows scroll last).map fun shown => (rowLines shown, { b with scroll })

/-- The lines shown and the browser after showing them. Nothing can be shown at a negative width or
from a scroll position out of range, and before the first size is known there is only a note. -/
def view? (b : Browser L) : Option (List Text × Browser L) :=
  if b.width = 0 then some (["Loading..."], b)
  else if b.width < 0 then none
  else match b.tab with
    | .dashboard => some ([b.headerLine, b.projectLine], b)
    | .conflicts =>
      if b.input.conflicts.isEmpty then some (b.headerLine :: noConflictLines, b)
      else some ([b.headerLine, b.categoriesLine], b)
    | .details => b.detailsView?.map fun (lines, b') => (b.headerLine :: lines, b')

end JvmLinkage.Browser
