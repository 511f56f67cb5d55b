import JvmLinkage.Proofs.Report.Buckets
import JvmLinkage.Report.Group
import Mathlib.Algebra.BigOperators.Ring.Finset
import Mathlib.Data.List.Forall2

/-!
# Gathering conflicts

Conflicts are gathered in one pass for each category: a conflict goes into a bucket for its class,
within a bucket for its artifact, and a count goes up. The buckets are then taken out in an order
that is left open, and sorted by name. Whatever that order and that way of sorting, the groups and
the tallies that come out are the same.
-/

namespace JvmLinkage

open Buckets

/-! ## The groups of one category -/

/-- The conflicts by class, and those buckets by artifact. -/
abbrev Gathered := Buckets Text (Buckets ClassName (List Conflict))

/-- Puts a conflict behind those of its class. -/
def putByClass : Buckets ClassName (List Conflict) → Conflict → Buckets ClassName (List Conflict) :=
  put (·.dependency.fromClass) (fun found k => found ++ [k]) []

/-- Takes a conflict into account, if it is of the category: it goes into its buckets, and the count
goes up. -/
def gather (category : Category) (s : Gathered × Nat) (k : Conflict) : Gathered × Nat :=
  if k.category = category then (put (·.usedBy) putByClass (fun _ => none) s.1 k, s.2 + 1) else s

/-- The buckets and the count after a pass over conflicts. -/
def gatherAll (category : Category) (conflicts : List Conflict) : Gathered × Nat :=
  conflicts.foldl (gather category) (fun _ => none, 0)

/-- A group is made of the classes of an artifact, in whatever order they are taken out. The count
is kept next to the list. -/
structure MakesArtifact (e : Text × Buckets ClassName (List Conflict)) (a : ArtifactGroup) :
    Prop where
  artifact : a.artifact = e.1
  classes : ∃ entries, e.2.Enumerates entries ∧
    Sorts (compareOn ClassGroup.name) (entries.map fun c => ⟨c.1, c.2⟩) a.classes ∧
    a.count = (entries.map (·.2.length)).sum

/-- A group is made of the artifacts with conflicts of a category, in whatever order they are taken
out. -/
structure MakesCategory (category : Category) (s : Gathered × Nat) (g : CategoryGroup) : Prop where
  category : g.category = category
  count : g.count = s.2
  artifacts : ∃ entries made, s.1.Enumerates entries ∧ List.Forall₂ MakesArtifact entries made ∧
    Sorts (compareOn ArtifactGroup.artifact) made g.artifacts

/-- Groups are made for the categories one after the other, except for those without conflicts. -/
inductive MakesGroups (conflicts : List Conflict) : List Category → List CategoryGroup → Prop where
  | nil : MakesGroups conflicts [] []
  | absent {category : Category} {rest : List Category} {groups : List CategoryGroup} :
      (gatherAll category conflicts).2 = 0 → MakesGroups conflicts rest groups →
      MakesGroups conflicts (category :: rest) groups
  | present {category : Category} {rest : List Category} {g : CategoryGroup}
      {groups : List CategoryGroup} :
      (gatherAll category conflicts).2 ≠ 0 →
      MakesCategory category (gatherAll category conflicts) g → MakesGroups conflicts rest groups →
      MakesGroups conflicts (category :: rest) (g :: groups)

/-- A pass gathers the conflicts of its category, and counts them. -/
theorem gatherAll_eq (category : Category) (conflicts : List Conflict) :
    gatherAll category conflicts =
      (fill (·.usedBy) putByClass (fun _ => none) (conflicts.filter (·.category = category)),
        (conflicts.filter (·.category = category)).length) := by
  have hrun : ∀ (rest : List Conflict) (s : Gathered × Nat),
      rest.foldl (gather category) s =
        ((rest.filter (·.category = category)).foldl (put (·.usedBy) putByClass fun _ => none) s.1,
          s.2 + (rest.filter (·.category = category)).length) := by
    intro rest
    induction rest with
    | nil => simp
    | cons k rest ih =>
      intro s
      rw [List.foldl_cons, ih, gather]
      by_cases hk : k.category = category
      · simp [hk, Nat.add_assoc, Nat.add_comm 1]
      · simp [hk]
  rw [gatherAll, hrun, Nat.zero_add, fill]

theorem foldl_snoc (xs ys : List Conflict) :
    ys.foldl (fun found k => found ++ [k]) xs = xs ++ ys := by
  induction ys generalizing xs with
  | nil => simp
  | cons y ys ih => simp [ih]

theorem sorts_classes_iff {found : List Conflict} {entries : List (ClassName × List Conflict)}
    (h : (found.foldl putByClass fun _ => none).Enumerates entries) (artifact : Text)
    {classes : List ClassGroup} :
    Sorts (compareOn ClassGroup.name) (entries.map fun c => ⟨c.1, c.2⟩) classes ↔
      classes = (ArtifactGroup.ofConflicts artifact found).classes := by
  rw [Enumerates.map_eq h]
  simp only [foldl_snoc, List.nil_append]
  exact Enumerates.sorts_iff_eq h fun _ => rfl

theorem sum_lengths_of_sorts {entries : List (ClassName × List Conflict)}
    {classes : List ClassGroup}
    (h : Sorts (compareOn ClassGroup.name) (entries.map fun c => ⟨c.1, c.2⟩) classes) :
    (entries.map (·.2.length)).sum = (classes.flatMap (·.conflicts)).length := by
  rw [List.length_flatMap, (h.perm.map _).sum_eq, List.map_map]
  rfl

/-- However the classes of an artifact are taken out, one group is made of them. -/
theorem makesArtifact_iff {artifact : Text} {found : List Conflict} {a : ArtifactGroup} :
    MakesArtifact (artifact, found.foldl putByClass fun _ => none) a ↔
      a = .ofConflicts artifact found := by
  constructor
  · rintro ⟨hartifact, entries, hentries, hclasses, hcount⟩
    rw [sum_lengths_of_sorts hclasses] at hcount
    rw [sorts_classes_iff hentries artifact] at hclasses
    cases a
    simp_all [ArtifactGroup.ofConflicts]
  · rintro rfl
    obtain ⟨entries, hentries⟩ :
        ∃ entries, (found.foldl putByClass fun _ => none).Enumerates entries :=
      exists_enumerates found
    have hclasses := (sorts_classes_iff hentries artifact).mpr rfl
    exact ⟨rfl, entries, hentries, hclasses, (sum_lengths_of_sorts hclasses).symm⟩

theorem forall₂_iff_eq_map {α β : Type} {r : α → β → Prop} {f : α → β} {xs : List α} {ys : List β}
    (h : ∀ x ∈ xs, ∀ y, r x y ↔ y = f x) : List.Forall₂ r xs ys ↔ ys = xs.map f := by
  induction xs generalizing ys with
  | nil => simp
  | cons x xs ih =>
    rw [List.forall₂_cons_left_iff]
    constructor
    · rintro ⟨y, ys, hy, hys, rfl⟩
      rw [(h x (by simp) y).mp hy, (ih fun z hz => h z (by simp [hz])).mp hys, List.map_cons]
    · rintro rfl
      exact ⟨f x, xs.map f, (h x (by simp) _).mpr rfl,
        (ih fun z hz => h z (by simp [hz])).mpr rfl, rfl⟩

theorem forall₂_makesArtifact_iff {found : List Conflict}
    {entries : List (Text × Buckets ClassName (List Conflict))} {made : List ArtifactGroup}
    (h : (fill (·.usedBy) putByClass (fun _ => none) found).Enumerates entries) :
    List.Forall₂ MakesArtifact entries made ↔
      made = (entries.map (·.1)).map fun name =>
        .ofConflicts name (found.filter (·.usedBy = name)) := by
  have hiff : ∀ e ∈ entries, ∀ a, MakesArtifact e a ↔
      a = .ofConflicts e.1 (found.filter (·.usedBy = e.1)) := by
    intro e he a
    rw [← makesArtifact_iff, ← (h.eq_of_mem he).2]
  rw [forall₂_iff_eq_map hiff, List.map_map]
  rfl

/-- However the artifacts of a category are taken out, one group is made of them. -/
theorem makesCategory_iff {category : Category} {conflicts : List Conflict} {g : CategoryGroup} :
    MakesCategory category (gatherAll category conflicts) g ↔
      g = .ofConflicts category (conflicts.filter (·.category = category)) := by
  rw [gatherAll_eq]
  constructor
  · rintro ⟨hcategory, hcount, entries, made, hentries, hmade, hartifacts⟩
    rw [forall₂_makesArtifact_iff hentries] at hmade
    rw [hmade, Enumerates.sorts_iff_eq hentries fun _ => rfl] at hartifacts
    cases g
    simp_all [CategoryGroup.ofConflicts]
  · rintro rfl
    let found := conflicts.filter (·.category = category)
    obtain ⟨entries, hentries⟩ :
        ∃ entries, (fill (·.usedBy) putByClass (fun _ => none) found).Enumerates entries :=
      exists_enumerates found
    exact ⟨rfl, rfl, entries, _, hentries, (forall₂_makesArtifact_iff hentries).mpr rfl,
      (Enumerates.sorts_iff_eq hentries fun _ => rfl).mpr rfl⟩

/-! ## All groups -/

/-- The groups are those of the categories that occur. -/
theorem groupConflicts_eq (conflicts : List Conflict) :
    groupConflicts conflicts =
      (Category.all.filter (· ∈ conflicts.map (·.category))).map fun category =>
        .ofConflicts category (conflicts.filter (·.category = category)) := by
  rw [groupConflicts, ← List.filterMap_eq_map, List.filterMap_filter]
  refine List.filterMap_congr fun category _ => ?_
  cases hfound : conflicts.filter (·.category = category) with
  | nil =>
    have hnone : category ∉ conflicts.map (·.category) := by
      simpa [List.filter_eq_nil_iff] using hfound
    simp [hnone]
  | cons k found =>
    have hk : k ∈ conflicts.filter (·.category = category) := by simp [hfound]
    have hsome : category ∈ conflicts.map (·.category) := by
      obtain ⟨hk, hcategory⟩ := List.mem_filter.mp hk
      exact List.mem_map.mpr ⟨k, hk, by simpa using hcategory⟩
    simp [hsome, hfound]

theorem count_gatherAll_eq_zero_iff {category : Category} {conflicts : List Conflict} :
    (gatherAll category conflicts).2 = 0 ↔ category ∉ conflicts.map (·.category) := by
  simp [gatherAll_eq, List.filter_eq_nil_iff]

/-- However the buckets are taken out, the same groups are made. -/
theorem makesGroups_iff {conflicts : List Conflict} {groups : List CategoryGroup} :
    MakesGroups conflicts Category.all groups ↔ groups = groupConflicts conflicts := by
  rw [groupConflicts_eq]
  generalize Category.all = categories
  constructor
  · intro h
    induction h with
    | nil => rfl
    | absent hcount _ ih =>
      rw [List.filter_cons_of_neg (by simpa using count_gatherAll_eq_zero_iff.mp hcount), ih]
    | present hcount hmakes _ ih =>
      rw [ne_eq, count_gatherAll_eq_zero_iff, not_not] at hcount
      rw [List.filter_cons_of_pos (by simpa using hcount), List.map_cons, ← ih,
        makesCategory_iff.mp hmakes]
  · rintro rfl
    induction categories with
    | nil => exact .nil
    | cons category rest ih =>
      by_cases hoccurs : category ∈ conflicts.map (·.category)
      · rw [List.filter_cons_of_pos (by simpa using hoccurs), List.map_cons]
        exact .present (count_gatherAll_eq_zero_iff.not.mpr (not_not.mpr hoccurs))
          (makesCategory_iff.mpr rfl) ih
      · rw [List.filter_cons_of_neg (by simpa using hoccurs)]
        exact .absent (count_gatherAll_eq_zero_iff.mpr hoccurs) ih

/-! ## The tallies -/

/-- The number of conflicts by artifact, which goes up by one for each of them. -/
def countByArtifact (conflicts : List Conflict) : Buckets Text Int :=
  fill (·.usedBy) (fun n _ => n + 1) 0 conflicts

/-- The tallies are made of the counts, in whatever order they are taken out. -/
def MakesTallies (conflicts : List Conflict) (tallies : List Tally) : Prop :=
  ∃ entries, (countByArtifact conflicts).Enumerates entries ∧
    Sorts Tally.cmp (entries.map fun e => ⟨e.1, e.2⟩) tallies

theorem foldl_count (n : Int) (ks : List Conflict) :
    ks.foldl (fun n _ => n + 1) n = n + ks.length := by
  induction ks generalizing n with
  | nil => simp
  | cons k ks ih =>
    rw [List.foldl_cons, ih, List.length_cons]
    omega

namespace Tally

instance : Std.TransCmp cmp :=
  have : Std.TransCmp fun a b : Tally => compareOn value b a := .opposite
  inferInstanceAs (Std.TransCmp (compareLex (fun a b => compareOn value b a) (compareOn label)))

instance : Std.LawfulEqCmp cmp where
  eq_of_compare {a b} h := by
    obtain ⟨hvalue, hlabel⟩ := Ordering.then_eq_eq.mp h
    have hvalue : b.value = a.value := Std.LawfulEqOrd.eq_of_compare hvalue
    have hlabel : a.label = b.label := Std.LawfulEqOrd.eq_of_compare hlabel
    cases a
    cases b
    simp_all

/-- The tallies are those of the artifacts that occur, in another order. -/
theorem byArtifact_perm (conflicts : List Conflict) :
    (byArtifact conflicts).Perm
      ((Ascending.ofList compare (conflicts.map (·.usedBy))).map fun label =>
        ⟨label, (conflicts.filter (·.usedBy = label)).length⟩) := by
  refine Ascending.ofList_perm ?_
  refine (Ascending.nodup_ofList compare _).map fun a b h => ?_
  exact congrArg label h

end Tally

/-- However the counts are taken out, the same tallies are made. -/
theorem makesTallies_iff {conflicts : List Conflict} {tallies : List Tally} :
    MakesTallies conflicts tallies ↔ tallies = Tally.byArtifact conflicts := by
  have hsorts : ∀ entries, (countByArtifact conflicts).Enumerates entries →
      (Sorts Tally.cmp (entries.map fun e => ⟨e.1, e.2⟩) tallies ↔
        tallies = Tally.byArtifact conflicts) := by
    intro entries h
    rw [Enumerates.map_eq h]
    simp only [foldl_count, Int.zero_add]
    exact Ascending.sorts_iff_eq (Ascending.ordered_ofList _ _)
      ((Tally.byArtifact_perm conflicts).trans ((Enumerates.keys_perm h).map _))
  constructor
  · rintro ⟨entries, hentries, h⟩
    exact (hsorts entries hentries).mp h
  · intro h
    obtain ⟨entries, hentries⟩ : ∃ entries, (countByArtifact conflicts).Enumerates entries :=
      exists_enumerates conflicts
    exact ⟨entries, hentries, (hsorts entries hentries).mpr h⟩

end JvmLinkage
