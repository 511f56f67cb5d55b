import Std.Data.TreeMap
import JvmLinkage.Declared.Basic

/-!
# Artifacts

A named set of declared classes, as one archive or directory supplies it.
-/

namespace JvmLinkage

/-- The order of classes in an artifact. -/
def DeclaredClass.cmp (a b : DeclaredClass) : Ordering := compare a.name b.name

/-- A named set of classes in order of their names, of which no two have the same one. -/
structure Artifact where
  name : Text
  classes : List DeclaredClass := []
  classes_ordered : Ascending.Ordered DeclaredClass.cmp classes := by decide
  deriving DecidableEq, Repr, Inhabited

namespace Artifact

/-- The classes by name; of two with the same name the later one counts. -/
def classTable (classes : List DeclaredClass) : Std.TreeMap ClassName DeclaredClass :=
  classes.foldl (fun table c => table.insert c.name c) ∅

/-- Every class stands under its own name. -/
theorem name_of_classTable {classes : List DeclaredClass} {name : ClassName} {c : DeclaredClass}
    (h : (classTable classes)[name]? = some c) : c.name = name := by
  let Named (table : Std.TreeMap ClassName DeclaredClass) : Prop :=
    ∀ (n : ClassName) (d : DeclaredClass), table[n]? = some d → d.name = n
  have hinsert (table) (c : DeclaredClass) (htable : Named table) :
      Named (table.insert c.name c) := by
    intro n d hd
    rw [Std.TreeMap.getElem?_insert] at hd
    split at hd
    · rename_i heq
      cases hd
      exact Std.LawfulEqOrd.eq_of_compare heq
    · exact htable n d hd
  have hfold (classes : List DeclaredClass) (table) (htable : Named table) :
      Named (classes.foldl (fun table c => table.insert c.name c) table) := by
    induction classes generalizing table with
    | nil => exact htable
    | cons c classes ih => exact ih _ (hinsert table c htable)
  exact hfold classes ∅ (by simp [Named]) name c h

/-- The artifact of a list of classes; of two with the same name the later one counts. -/
def ofClasses (name : Text) (classes : List DeclaredClass) : Artifact where
  name := name
  classes := (classTable classes).toList.map (·.2)
  classes_ordered := by
    refine List.pairwise_map.mpr (Std.TreeMap.ordered_keys_toList.imp_of_mem ?_)
    intro a b ha hb hlt
    have hname {entry} (h : entry ∈ (classTable classes).toList) : entry.2.name = entry.1 :=
      name_of_classTable (Std.TreeMap.mem_toList_iff_getElem?_eq_some.mp h)
    rw [DeclaredClass.cmp, hname ha, hname hb]
    exact hlt

/-- What is named as the supplier of classes that nothing supplies. -/
def unknownName : Text := "<unknown>"

/-- The declaration of a class. -/
def find? (a : Artifact) (name : ClassName) : Option DeclaredClass :=
  a.classes.find? fun c => c.name = name

/-- The number of classes. -/
def size (a : Artifact) : Nat := a.classes.length

end Artifact

end JvmLinkage
