import JvmLinkage.Linkage.Artifact

/-!
# The world of classes

Every known class, as a class loader sees it that searches the artifacts in order and stops at the
first that declares a class.
-/

namespace JvmLinkage

/-- A declaration with the name of the artifact that supplies it. -/
structure Supply where
  declared : DeclaredClass
  source : Text
  deriving Repr

/-- The supplied classes, each under its own name. -/
structure World where
  supplies : Std.TreeMap ClassName Supply := ∅
  name_of_supply (name : ClassName) (s : Supply) :
    supplies[name]? = some s → s.declared.name = name := by simp

namespace World

/-- Adds a class from a source unless its name is already supplied. -/
def supply (w : World) (source : Text) (c : DeclaredClass) : World where
  supplies := w.supplies.insertIfNew c.name ⟨c, source⟩
  name_of_supply name s h := by
    rw [Std.TreeMap.getElem?_insertIfNew] at h
    split at h
    · rename_i hnew
      cases h
      exact Std.LawfulEqOrd.eq_of_compare hnew.1
    · exact w.name_of_supply name s h

/-- Adds the classes of an artifact that nothing supplies yet. -/
def add (w : World) (a : Artifact) : World :=
  a.classes.foldl (fun w c => w.supply a.name c) w

/-- The world of a list of artifacts, the first of which is searched first. -/
def ofArtifacts (artifacts : List Artifact) : World := artifacts.foldl add {}

/-- The declaration that a name stands for. -/
def find? (w : World) (name : ClassName) : Option DeclaredClass :=
  (w.supplies[name]?).map (·.declared)

/-- The artifact that supplies a class. -/
def sourceOf? (w : World) (name : ClassName) : Option Text := (w.supplies[name]?).map (·.source)

/-- The artifact that supplies a class, or the name for suppliers unknown. -/
def sourceOrUnknown (w : World) (name : ClassName) : Text :=
  (w.sourceOf? name).getD Artifact.unknownName

/-- The number of known classes. -/
def size (w : World) : Nat := w.supplies.size

end World

end JvmLinkage
