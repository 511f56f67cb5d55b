import JvmLinkage.Linkage.Conflict
import JvmLinkage.Text.Blank

/-!
# Filtering conflicts by package

Conflicts are kept or dropped by the packages of the classes at their two ends.
-/

namespace JvmLinkage

/-- Which conflicts to keep. A package name stands for itself and, if asked for, for the packages
below it. -/
structure Filter where
  ignoreSource : List Text := []
  ignoreDestination : List Text := []
  targetSource : List Text := []
  includeSubpackages : Bool := false
  deriving DecidableEq, Repr, Inhabited

namespace Filter

/-- Whether the filter names no package. -/
def isEmpty (f : Filter) : Bool :=
  f.ignoreSource.isEmpty && f.ignoreDestination.isEmpty && f.targetSource.isEmpty

/-- A pattern without blanks around it and without a dot at its end. -/
def normal (pattern : Text) : Text := (pattern.trim.beforeEnd? ".").getD pattern.trim

/-- Whether a pattern stands for a package. -/
def matchesOne (f : Filter) (package pattern : Text) : Bool :=
  let pattern := normal pattern
  package = pattern || (f.includeSubpackages && package.startsWith (pattern ++ "."))

/-- Whether one of the patterns stands for a package. -/
def matchesAny (f : Filter) (package : Text) (patterns : List Text) : Bool :=
  patterns.any (f.matchesOne package)

/-- Whether a conflict is kept. -/
def keeps (f : Filter) (c : Conflict) : Bool :=
  let source := c.dependency.fromClass.package
  let target := c.dependency.targetClass.package
  (f.targetSource.isEmpty || f.matchesAny source f.targetSource)
    && !f.matchesAny source f.ignoreSource && !f.matchesAny target f.ignoreDestination

/-- The conflicts that are kept. A filter that names no package is not asked about each. -/
def apply (f : Filter) (conflicts : List Conflict) : List Conflict :=
  if f.isEmpty then conflicts else conflicts.filter f.keeps

theorem keeps_of_isEmpty {f : Filter} (h : f.isEmpty = true) (c : Conflict) : f.keeps c = true := by
  simp only [isEmpty, Bool.and_eq_true, List.isEmpty_iff] at h
  simp [keeps, matchesAny, h]

/-- Whether or not the filter is asked about each conflict, the kept ones are left. -/
theorem apply_eq_filter (f : Filter) (conflicts : List Conflict) :
    f.apply conflicts = conflicts.filter f.keeps := by
  rw [apply]
  split
  · rename_i hempty
    exact (List.filter_eq_self.mpr fun c _ => keeps_of_isEmpty hempty c).symm
  · rfl

end Filter

end JvmLinkage
