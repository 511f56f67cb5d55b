import JvmLinkage.Linkage.World
import Mathlib.Data.List.Forall2
import Mathlib.Data.List.Induction

/-!
# What a world supplies

The world of a list of artifacts supplies under a name what the first artifact that declares it has
there. More artifacts at the end of the list therefore change nothing about names that are supplied,
and classes taken away change nothing about the other names.
-/

namespace JvmLinkage

/-! ## Artifacts -/

namespace Artifact

variable {a a' : Artifact} {name : ClassName} {c d : DeclaredClass}

/-- What an artifact supplies under a name. -/
def supply? (a : Artifact) (name : ClassName) : Option Supply :=
  (a.find? name).map fun c => ⟨c, a.name⟩

theorem eq_of_name_eq (hc : c ∈ a.classes) (hd : d ∈ a.classes) (h : c.name = d.name) : c = d := by
  let R (c d : DeclaredClass) : Prop := c.name = d.name → c = d
  have hself : ∀ c ∈ a.classes, R c c := fun _ _ _ => rfl
  have hcmp {c d : DeclaredClass} (hlt : DeclaredClass.cmp c d = .lt) : c.name ≠ d.name := by
    intro heq
    have hself : compare d.name d.name = .eq := Std.ReflOrd.compare_self
    rw [DeclaredClass.cmp, heq, hself] at hlt
    contradiction
  have hfront : a.classes.Pairwise R := a.classes_ordered.imp fun hlt heq => absurd heq (hcmp hlt)
  have hback : a.classes.Pairwise (flip R) :=
    a.classes_ordered.imp fun hlt heq => absurd heq.symm (hcmp hlt)
  exact List.Pairwise.forall_of_forall_of_flip hself hfront hback hc hd h

theorem find?_eq_some_iff : a.find? name = some c ↔ c ∈ a.classes ∧ c.name = name := by
  constructor
  · intro h
    exact ⟨List.mem_of_find?_eq_some h, by simpa using List.find?_some h⟩
  · rintro ⟨hc, rfl⟩
    cases hfind : a.find? c.name with
    | none => simpa using List.find?_eq_none.mp hfind c hc
    | some d =>
      have hd : d.name = c.name := by simpa using List.find?_some hfind
      rw [eq_of_name_eq (List.mem_of_find?_eq_some hfind) hc hd]

/-! ### The last class of a name -/

theorem getElem?_classTable (classes : List DeclaredClass) (name : ClassName) :
    (classTable classes)[name]? = classes.reverse.find? fun c => c.name = name := by
  induction classes using List.reverseRecOn with
  | nil => simp [classTable]
  | append_singleton classes c ih =>
    have htable : classTable (classes ++ [c]) = (classTable classes).insert c.name c := by
      rw [classTable, List.foldl_append]
      rfl
    rw [htable, Std.TreeMap.getElem?_insert, List.reverse_append, ih]
    by_cases hname : c.name = name
    · simp [hname]
    · simp [hname]

theorem find?_ofClasses (a : Text) (classes : List DeclaredClass) (name : ClassName) :
    (ofClasses a classes).find? name = classes.reverse.find? fun c => c.name = name := by
  rw [← getElem?_classTable]
  ext c
  rw [find?_eq_some_iff]
  constructor
  · rintro ⟨hc, rfl⟩
    obtain ⟨⟨key, d⟩, hentry, rfl⟩ := List.mem_map.mp hc
    have hd := Std.TreeMap.mem_toList_iff_getElem?_eq_some.mp hentry
    rwa [name_of_classTable hd]
  · intro hc
    refine ⟨List.mem_map.mpr ⟨(name, c), ?_, rfl⟩, name_of_classTable hc⟩
    exact Std.TreeMap.mem_toList_iff_getElem?_eq_some.mpr hc

/-- An artifact holds the last class of each name. -/
theorem find?_ofClasses_eq_some_iff {a : Text} {classes : List DeclaredClass} :
    (ofClasses a classes).find? name = some c ↔
      c.name = name ∧ ∃ front back, classes = front ++ c :: back ∧ ∀ d ∈ back, d.name ≠ name := by
  rw [find?_ofClasses, List.find?_eq_some_iff_append]
  refine and_congr (by simp) ?_
  constructor
  · rintro ⟨front, back, hsplit, hfront⟩
    refine ⟨back.reverse, front.reverse, ?_, by simpa using hfront⟩
    have hreverse := congrArg List.reverse hsplit
    simpa using hreverse
  · rintro ⟨front, back, rfl, hback⟩
    exact ⟨back.reverse, front.reverse, by simp, by simpa using hback⟩

/-! ### Classes taken away -/

/-- An artifact of which some classes are taken away. Their names are not among those to keep. -/
structure Pruned (keeps : ClassName → Bool) (a a' : Artifact) : Prop where
  name_eq : a'.name = a.name
  sublist : a'.classes.Sublist a.classes
  dropped : ∀ c ∈ a.classes, c ∉ a'.classes → keeps c.name = false

theorem Pruned.supply?_eq {keeps : ClassName → Bool} (h : Pruned keeps a a')
    (hname : keeps name = true ∨ a.find? name = none) : a'.supply? name = a.supply? name := by
  rw [supply?, supply?, h.name_eq]
  congr 1
  ext c
  rw [find?_eq_some_iff, find?_eq_some_iff]
  constructor
  · rintro ⟨hc, hcname⟩
    exact ⟨h.sublist.mem hc, hcname⟩
  · rintro ⟨hc, rfl⟩
    refine ⟨?_, rfl⟩
    rcases hname with hkeeps | hnone
    · by_cases hkept : c ∈ a'.classes
      · exact hkept
      · simp [h.dropped c hc hkept] at hkeeps
    · rw [find?_eq_some_iff.mpr ⟨hc, rfl⟩] at hnone
      contradiction

end Artifact

/-! ## Worlds -/

namespace World

variable {w w' : World} {name : ClassName} {c : DeclaredClass}

theorem supplies_supply (w : World) (source : Text) (c : DeclaredClass) (name : ClassName) :
    (w.supply source c).supplies[name]? =
      (w.supplies[name]?).or (if c.name = name then some ⟨c, source⟩ else none) := by
  change (w.supplies.insertIfNew c.name ⟨c, source⟩)[name]? = _
  rw [Std.TreeMap.getElem?_insertIfNew]
  by_cases hname : c.name = name
  · subst hname
    cases hold : w.supplies[c.name]? with
    | none =>
      have hnew : c.name ∉ w.supplies := by
        rw [← Std.TreeMap.isSome_getElem?_iff_mem, hold]
        simp
      simp [hnew]
    | some s =>
      have hin : c.name ∈ w.supplies := by
        rw [← Std.TreeMap.isSome_getElem?_iff_mem, hold]
        simp
      simp [hin]
  · simp [hname]

theorem supplies_add (w : World) (a : Artifact) (name : ClassName) :
    (w.add a).supplies[name]? = (w.supplies[name]?).or (a.supply? name) := by
  have key : ∀ (classes : List DeclaredClass) (w : World),
      (classes.foldl (fun w c => w.supply a.name c) w).supplies[name]? =
        (w.supplies[name]?).or
          ((classes.find? fun c => c.name = name).map fun c => ⟨c, a.name⟩) := by
    intro classes
    induction classes with
    | nil => simp
    | cons c classes ih =>
      intro w
      rw [List.foldl_cons, ih, supplies_supply, Option.or_assoc]
      by_cases hname : c.name = name
      · simp [hname]
      · simp [hname]
  exact key a.classes w

/-- A world supplies what the first artifact that declares a name has. -/
theorem supplies_ofArtifacts (artifacts : List Artifact) (name : ClassName) :
    (ofArtifacts artifacts).supplies[name]? = artifacts.findSome? (·.supply? name) := by
  have key : ∀ (artifacts : List Artifact) (w : World),
      (artifacts.foldl add w).supplies[name]? =
        (w.supplies[name]?).or (artifacts.findSome? (·.supply? name)) := by
    intro artifacts
    induction artifacts with
    | nil => simp
    | cons a artifacts ih =>
      intro w
      rw [List.foldl_cons, ih, supplies_add, Option.or_assoc, List.findSome?_cons]
      cases a.supply? name <;> simp
  rw [ofArtifacts, key]
  simp

/-- Whatever the first world supplies, the second one supplies as well. -/
def Extends (w w' : World) : Prop :=
  ∀ (name : ClassName) (s : Supply), w.supplies[name]? = some s → w'.supplies[name]? = some s

theorem extends_append (all extra : List Artifact) :
    Extends (ofArtifacts all) (ofArtifacts (all ++ extra)) := by
  intro name s h
  rw [supplies_ofArtifacts] at h ⊢
  rw [List.findSome?_append, h, Option.some_or]

theorem Extends.find? (h : Extends w w') (hc : w.find? name = some c) : w'.find? name = some c := by
  obtain ⟨s, hs, rfl⟩ := Option.map_eq_some_iff.mp hc
  rw [World.find?, h name s hs, Option.map_some]

/-- Names that are kept, and names that are not supplied, stand for the same after pruning. -/
theorem supplies_pruned {keeps : ClassName → Bool} {all all' : List Artifact}
    (h : List.Forall₂ (Artifact.Pruned keeps) all all')
    (hname : keeps name = true ∨ (ofArtifacts all).find? name = none) :
    (ofArtifacts all').supplies[name]? = (ofArtifacts all).supplies[name]? := by
  rw [find?, supplies_ofArtifacts] at hname
  rw [supplies_ofArtifacts, supplies_ofArtifacts]
  induction h with
  | nil => rfl
  | @cons a a' all all' ha _ ih =>
    rw [List.findSome?_cons] at hname
    have hhead : keeps name = true ∨ a.find? name = none := by
      refine hname.imp_right fun hnone => ?_
      cases hfind : a.find? name with
      | none => rfl
      | some c => simp [Artifact.supply?, hfind] at hnone
    rw [List.findSome?_cons, List.findSome?_cons, ha.supply?_eq hhead]
    cases hsupply : a.supply? name with
    | some s => rfl
    | none =>
      rw [hsupply] at hname
      exact ih hname

end World

end JvmLinkage
