import JvmLinkage.Command.Session

/-!
# The inspect command

The command shows what the classes of an artifact declare and refer to.
-/

namespace JvmLinkage

namespace Inspection

/-- The names of classes in one line. -/
def shownNames (names : List ClassName) : Text := Text.join ", " (names.map ClassName.dotted)

/-- The line and the caught exceptions of a reference, if it has any. -/
def shownPlace (line : Int) (caught : List ClassName) : Text :=
  let lines : List Text := if 0 < line then ["line " ++ Text.ofInt line] else []
  let catches : List Text := if caught.isEmpty then [] else ["catches " ++ shownNames caught]
  let notes := lines ++ catches
  if notes.isEmpty then [] else " [" ++ Text.join ", " notes ++ "]"

/-- The line about a call. -/
def shownCall (c : Call) : Text :=
  let verb : Text := if c.method.static then "calls static " else "calls "
  "     → " ++ verb ++ c.shown ++ shownPlace c.line c.caught ++ "\n"

/-- The line about an access. -/
def shownAccess (a : Access) : Text :=
  let noun : Text := if a.static then "static field " else "field "
  "     → " ++ noun ++ a.shown ++ shownPlace a.line a.caught ++ "\n"

/-- The lines about a method. -/
def shownMethod (m : DeclaredMethod) : Text :=
  let line : Text := if 0 < m.line then "  (line " ++ Text.ofInt m.line ++ ")" else []
  "   method   " ++ m.method.shown ++ line ++ "\n" ++ m.calls.flatMap shownCall
    ++ m.accesses.flatMap shownAccess

/-- The line about a field. -/
def shownField (f : Field) : Text := "   field    " ++ f.shown ++ "\n"

/-- A line with a label and names, if there are any. -/
def shownList (label : Text) (names : List ClassName) : Text :=
  if names.isEmpty then [] else "   " ++ label ++ shownNames names ++ "\n"

/-- The lines about a class. -/
def shownClass (c : DeclaredClass) : Text :=
  "\n📄 " ++ c.name.dotted ++ "\n" ++ shownList "extends: " c.parents
    ++ shownList "loads:   " c.loads
    ++ c.fields.flatMap shownField ++ c.methods.flatMap shownMethod

/-- The lines about an artifact, of whose classes some are shown. -/
def shownArtifact (a : Artifact) (classes : List DeclaredClass) : Text :=
  "📦 " ++ a.name ++ ": " ++ Text.ofNat a.size ++ " classes\n" ++ classes.flatMap shownClass

/-- The classes of an artifact that are asked for; no name asks for all. -/
def chosen (a : Artifact) (name : Text) : Except CommandFailure (List DeclaredClass) := do
  if name.isEmpty then return a.classes
  let className ← (ClassName.parse name).mapError (.malformedClassName name)
  match a.find? className with
  | some c => return [c]
  | none => throw (.unknownClass className a.name)

end Inspection

namespace InspectCommand

variable {m : Type → Type} [Monad m] [Host m]

/-- Runs the command on the artifact at a path. -/
def run (w : Words) (path : Path) : Session m Unit := do
  let a ← Session.attempt .loading (Loader.load {} path)
  let classes ← Session.require id (Inspection.chosen a ((w.text? .className).getD []))
  Session.say (Inspection.shownArtifact a classes)

end InspectCommand

end JvmLinkage
