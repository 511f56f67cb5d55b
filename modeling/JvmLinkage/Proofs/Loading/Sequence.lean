import JvmLinkage.Proofs.Cache.Transparency

/-!
# Loading one artifact after the other

Artifacts are loaded in order, each from the tree that the load of the one before leaves. The first
load that fails ends the work. Otherwise there is one artifact for every path, in the same order.
-/

namespace JvmLinkage

/-- The name under which an artifact is loaded from a path by default, and the path. -/
def Path.named (p : Path) : Text × Path := (Path.base p, p)

namespace Loader

/-! ## Names -/

variable {l : Loader} {name : Text} {p : Path} {t t' : FileTree} {a : Artifact}

theorem name_of_loadDirectory (h : (l.loadDirectory (m := InTree) name p).run.run t = (.ok a, t')) :
    a.name = name := by
  obtain ⟨paths, t₁, -, hclasses⟩ := InTree.exists_of_run_bind_ok h
  obtain ⟨classes, t₂, -, hpure⟩ := InTree.exists_of_run_bind_ok hclasses
  cases hpure
  rfl

theorem name_of_loadClassFile (h : (l.loadClassFile (m := InTree) name p).run.run t = (.ok a, t')) :
    a.name = name := by
  obtain ⟨data, t₁, -, hclass⟩ := InTree.exists_of_run_bind_ok h
  obtain ⟨c, t₂, -, hpure⟩ := InTree.exists_of_run_bind_ok hclass
  cases hpure
  rfl

theorem name_of_loadArchive (h : (l.loadArchive (m := InTree) name p).run.run t = (.ok a, t')) :
    a.name = name := by
  unfold loadArchive at h
  split at h
  all_goals
    obtain ⟨data, t₁, -, hclasses⟩ := InTree.exists_of_run_bind_ok h
    obtain ⟨classes, t₂, -, hpure⟩ := InTree.exists_of_run_bind_ok hclasses
    cases hpure
    rfl

/-- An artifact has the name under which it was loaded. -/
theorem name_of_loadNamed (h : (l.loadNamed (m := InTree) name p).run.run t = (.ok a, t')) :
    a.name = name := by
  obtain ⟨kind, t₁, -, hload⟩ := InTree.exists_of_run_bind_ok h
  cases kind with
  | directory => exact name_of_loadDirectory hload
  | file =>
    dsimp only at hload
    split at hload
    · exact name_of_loadClassFile hload
    · exact name_of_loadArchive hload

/-! ## Lists of artifacts -/

/-- Artifacts are loaded under names from paths, each from the tree that the one before left. -/
inductive Loads (l : Loader) : FileTree → List (Text × Path) → List Artifact → FileTree → Prop where
  | nil {t : FileTree} : Loads l t [] [] t
  | cons {t t₁ t' : FileTree} {name : Text} {p : Path} {known : List (Text × Path)} {a : Artifact}
      {artifacts : List Artifact} :
      (l.loadNamed (m := InTree) name p).run.run t = (.ok a, t₁) →
      Loads l t₁ known artifacts t' → Loads l t ((name, p) :: known) (a :: artifacts) t'

variable {known more : List (Text × Path)} {artifacts : List Artifact}

theorem Loads.map_name (h : l.Loads t known artifacts t') :
    artifacts.map Artifact.name = known.map Prod.fst := by
  induction h with
  | nil => rfl
  | cons hload _ ih => rw [List.map_cons, List.map_cons, ih, name_of_loadNamed hload]

theorem Loads.length_eq (h : l.Loads t known artifacts t') : artifacts.length = known.length := by
  simpa using congrArg List.length h.map_name

theorem loads_append : l.Loads t (known ++ more) artifacts t' ↔
    ∃ front back t₁, artifacts = front ++ back ∧ l.Loads t known front t₁ ∧
      l.Loads t₁ more back t' := by
  constructor
  · intro h
    induction known generalizing t artifacts with
    | nil => exact ⟨[], artifacts, t, rfl, .nil, h⟩
    | cons entry known ih =>
      cases h with | cons hload hrest =>
      obtain ⟨front, back, t₁, rfl, hfront, hback⟩ := ih hrest
      exact ⟨_ :: front, back, t₁, rfl, .cons hload hfront, hback⟩
  · rintro ⟨front, back, t₁, rfl, hfront, hback⟩
    induction hfront with
    | nil => exact hback
    | cons hload _ ih => exact .cons hload (ih hback)

end Loader

end JvmLinkage
