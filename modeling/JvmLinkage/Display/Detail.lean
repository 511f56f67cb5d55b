import JvmLinkage.Display.Bar
import JvmLinkage.Display.Block
import JvmLinkage.Report.Severity

/-!
# Details and overview

The lines that tell all about one conflict, and those that sum up a check.
-/

namespace JvmLinkage

/-- The text with a space on both sides, as titles and tabs have it. -/
def padded (t : Text) : Text := " " ++ t ++ " "

/-- A key in a column of a width, and its value beside it. Both may take several lines. -/
def keyValue (key value : Text) (width : Nat) : Text :=
  Text.join "\n" (Block.beside [.ofText width (key ++ ":"), [" "], .ofText 0 value])

/-- The width of the column of keys. -/
def detailKeyWidth : Nat := 14

/-- The sign and the heading of a category. -/
def categoryLine (c : Category) : Text := (Severity.ofCategory c).icon ++ " " ++ c.title

/-- The steps of a path, one a line. -/
def pathLines (path : List (ClassName × Via)) : List Text :=
  path.mapIdx fun i (name, via) =>
    let branch : Text := if i + 1 < path.length then "  ├─ " else "  └─ "
    branch ++ via.shown.padRight 9 ++ " " ++ name.dotted

/-- The lines that explain why a class is reached. -/
def reachLines (reachable : Option ReachableSet) (name : ClassName) : List Text :=
  match reachable.bind (·.pathTo? name) with
  | none | some [] => []
  | some path => [] :: padded "Why this class is checked" :: pathLines path

/-- The rows about a conflict on a screen of a width. A row may take several lines. -/
def detailRows (c : Conflict) (reachable : Option ReachableSet) (width : Int) : List Text :=
  let d := c.dependency
  let row (key value : Text) : Text := keyValue key value detailKeyWidth
  let signature := d.targetMethod.toList.map fun m => row "Signature" m.shown
  let fieldType := d.targetField.toList.map fun f => row "Field type" f.type.shown
  [categoryLine c.category, []] ++ c.reason.wrap (max (width - 4) 10)
    ++ [[], row "Source" d.source, row "Target" d.target] ++ signature ++ fieldType
    ++ [row "Used by" c.usedBy, row "Exists in" c.existsIn] ++ reachLines reachable d.fromClass

/-- The lines of rows. -/
def rowLines (rows : List Text) : List Text := rows.flatMap (Text.splitOn Ascii.newline)

/-- The lines about a conflict on a screen of a width. -/
def detailLines (c : Conflict) (reachable : Option ReachableSet) (width : Int) : List Text :=
  rowLines (detailRows c reachable width)

/-- The title of a conflict in a list. -/
def Conflict.listTitle (c : Conflict) : Text :=
  (Severity.ofCategory c.category).icon ++ " " ++ c.reason

/-- The line below the title of a conflict in a list. -/
def Conflict.listDescription (c : Conflict) : Text :=
  c.dependency.source ++ " | used by " ++ c.usedBy

/-- The text in which a search looks for a conflict. -/
def Conflict.searchText (c : Conflict) : Text :=
  c.dependency.target ++ " " ++ c.dependency.source ++ " " ++ c.usedBy

/-- The short word for a category. -/
def Category.short : Category → Text
  | .classNotFound => "class"
  | .methodNotFound => "method"
  | _ => "field"

/-- The lines that sum up a check. -/
def overviewLines (s : Summary) (conflicts width : Int) : List Text :=
  let status := if conflicts > 0 then Severity.critical.icon else Severity.good.icon
  let hidden : List Text :=
    if s.filtered > 0 then ["• Hidden by filters: " ++ Text.ofInt s.filtered] else []
  let share := Duration.nearest s.reachable / Duration.nearest s.known
  let bar : List Text :=
    if s.known > 0 then [[], labelledBar share (max (width - 4) 10) (percentText share ++ " reachable")]
    else []
  [padded "Overview", "• Known classes: " ++ Text.ofInt s.known,
    "• Reachable classes: " ++ Text.ofInt s.reachable, "• Checked classes: " ++ Text.ofInt s.classes,
    "• Conflicts: " ++ Text.ofInt conflicts ++ " " ++ status] ++ hidden ++ bar

end JvmLinkage
