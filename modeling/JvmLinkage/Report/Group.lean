import JvmLinkage.Ascending
import JvmLinkage.Duration
import JvmLinkage.Linkage.Checker

/-!
# Grouping and counting conflicts

Reports list conflicts by category, then by the artifact that refers, then by the class that
refers, and count them by artifact and by category.
-/

namespace JvmLinkage

/-- What a report says about the run that found its conflicts. -/
structure Summary where
  project : Text
  checked : List Text
  known : Int
  reachable : Int
  classes : Int
  filtered : Int
  elapsed : Duration
  deriving DecidableEq, Repr, Inhabited

/-- The summary of a check. -/
def Summary.ofResult (project : Text) (checked : List Text) (filtered : Nat) (elapsed : Duration)
    (r : CheckResult) : Summary :=
  ⟨project, checked, r.world.size, r.reachable.size, r.checked, filtered, elapsed⟩

/-- The conflicts that one class raises. -/
structure ClassGroup where
  name : ClassName
  conflicts : List Conflict
  deriving DecidableEq, Repr

/-- The conflicts that one artifact raises, by class. -/
structure ArtifactGroup where
  artifact : Text
  classes : List ClassGroup
  count : Nat
  deriving DecidableEq, Repr

/-- The conflicts of one category, by artifact. -/
structure CategoryGroup where
  category : Category
  artifacts : List ArtifactGroup
  count : Nat
  deriving DecidableEq, Repr

/-- The conflicts of one artifact, by class in order of names. -/
def ArtifactGroup.ofConflicts (artifact : Text) (conflicts : List Conflict) : ArtifactGroup :=
  let names := Ascending.ofList compare (conflicts.map (·.dependency.fromClass))
  let classes := names.map fun name =>
    (⟨name, conflicts.filter (·.dependency.fromClass = name)⟩ : ClassGroup)
  ⟨artifact, classes, (classes.flatMap (·.conflicts)).length⟩

/-- The conflicts of one category, by artifact in order of names. -/
def CategoryGroup.ofConflicts (category : Category) (conflicts : List Conflict) : CategoryGroup :=
  let names := Ascending.ofList compare (conflicts.map (·.usedBy))
  ⟨category, names.map fun name => .ofConflicts name (conflicts.filter (·.usedBy = name)),
    conflicts.length⟩

/-- The conflicts by category, artifact and class. Categories without conflicts are left out. -/
def groupConflicts (conflicts : List Conflict) : List CategoryGroup :=
  Category.all.filterMap fun category =>
    match conflicts.filter (·.category = category) with
    | [] => none
    | found => some (.ofConflicts category found)

/-- A number with a label. -/
structure Tally where
  label : Text
  value : Int
  deriving DecidableEq, Repr, Inhabited

namespace Tally

/-- Larger numbers come first, and among equal ones the labels ascend. -/
def cmp (a b : Tally) : Ordering := (compare b.value a.value).then (compare a.label b.label)

/-- The number of conflicts per referring artifact, largest first. -/
def byArtifact (conflicts : List Conflict) : List Tally :=
  let labels := Ascending.ofList compare (conflicts.map (·.usedBy))
  Ascending.ofList cmp (labels.map fun label =>
    ⟨label, (conflicts.filter (·.usedBy = label)).length⟩)

/-- The number of conflicts per category, in the order of categories. -/
def byCategory (conflicts : List Conflict) : List Tally :=
  Category.all.map fun category =>
    ⟨category.title, (conflicts.filter (·.category = category)).length⟩

end Tally

end JvmLinkage
