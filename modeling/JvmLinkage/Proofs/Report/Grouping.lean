import JvmLinkage.Proofs.Checking
import JvmLinkage.Proofs.Report.Gathering

/-!
# What the groups and the tallies say

The groups of a list of conflicts list each of them once, at the place that its category, its
artifact and its class give it. All counts in the groups and all tallies count the same conflicts.
Neither depends on the order in which the conflicts were taken out of their buckets.
-/

namespace JvmLinkage

/-! ## Places -/

/-- A category, an artifact and a class, which have a list of conflicts in the groups. -/
structure Conflict.Place where
  category : Category
  artifact : Text
  name : ClassName
  deriving DecidableEq

/-- The place of a conflict: its category, the artifact that refers and the class that refers. -/
def Conflict.place (k : Conflict) : Place := ⟨k.category, k.usedBy, k.dependency.fromClass⟩

/-- The conflicts of an artifact, class by class. -/
def ArtifactGroup.conflicts (a : ArtifactGroup) : List Conflict := a.classes.flatMap (·.conflicts)

namespace CategoryGroup

/-- The conflicts of a category, artifact by artifact and class by class. -/
def conflicts (g : CategoryGroup) : List Conflict := g.artifacts.flatMap (·.conflicts)

/-- What a category lists, with the place where it is listed. -/
def listed (g : CategoryGroup) : List (Conflict.Place × Conflict) :=
  g.artifacts.flatMap fun a => a.classes.flatMap fun c =>
    c.conflicts.map fun k => (⟨g.category, a.artifact, c.name⟩, k)

/-- The count of a category in groups, zero if it has no group. -/
def countOf (groups : List CategoryGroup) (category : Category) : Nat :=
  ((groups.find? (·.category = category)).map (·.count)).getD 0

/-- Groups list conflicts by category, artifact and class. -/
structure Lists (groups : List CategoryGroup) (conflicts : List Conflict) : Prop where
  once : (groups.flatMap listed).Perm (conflicts.map fun k => (k.place, k))
  order : ∀ g ∈ groups, ∀ a ∈ g.artifacts, ∀ c ∈ a.classes,
    c.conflicts = conflicts.filter (·.place = ⟨g.category, a.artifact, c.name⟩)
  categories : (groups.map (·.category)).Sublist Category.all
  artifacts : ∀ g ∈ groups, Ascending.Ordered compare (g.artifacts.map (·.artifact))
  classes : ∀ g ∈ groups, ∀ a ∈ g.artifacts,
    Ascending.Ordered compare (a.classes.map (·.name.dotted))
  nonempty : ∀ g ∈ groups, g.artifacts ≠ [] ∧
    ∀ a ∈ g.artifacts, a.classes ≠ [] ∧ ∀ c ∈ a.classes, c.conflicts ≠ []

end CategoryGroup

namespace Tally

/-- The value that tallies have for a label, zero if they have none. -/
def valueOf (tallies : List Tally) (label : Text) : Int :=
  ((tallies.find? (·.label = label)).map (·.value)).getD 0

/-- Tallies count conflicts by artifact, each artifact once: larger values come first, and among
equal ones the labels ascend. -/
structure Ranks (tallies : List Tally) (conflicts : List Conflict) : Prop where
  distinct : (tallies.map (·.label)).Nodup
  labels : ∀ label, label ∈ tallies.map (·.label) ↔ ∃ k ∈ conflicts, k.usedBy = label
  ordered : tallies.Pairwise fun a b =>
    b.value < a.value ∨ a.value = b.value ∧ compare a.label b.label = .lt
  total : (tallies.map (·.value)).sum = conflicts.length

end Tally

/-- The counts in groups and the tallies of conflicts agree. -/
structure CountsAgree (groups : List CategoryGroup) (conflicts : List Conflict) : Prop where
  artifact : ∀ g ∈ groups, ∀ a ∈ g.artifacts, a.count = a.conflicts.length
  category : ∀ g ∈ groups, g.count = (g.artifacts.map (·.count)).sum
  byCategory : Tally.byCategory conflicts =
    Category.all.map fun category => ⟨category.title, CategoryGroup.countOf groups category⟩
  byArtifact : ∀ artifact, Tally.valueOf (Tally.byArtifact conflicts) artifact =
    (((groups.flatMap (·.artifacts)).filter (·.artifact = artifact)).map (·.count)).sum

/-! ## The groups of one artifact and of one category -/

section

variable {artifact : Text} {category : Category} {found : List Conflict} {c : ClassGroup}
  {a : ArtifactGroup}

theorem ArtifactGroup.mem_classes_iff :
    c ∈ (ofConflicts artifact found).classes ↔
      (∃ k ∈ found, k.dependency.fromClass = c.name) ∧
        c = ⟨c.name, found.filter (·.dependency.fromClass = c.name)⟩ := by
  rw [ofConflicts, mem_map_iff_name ClassGroup.name fun _ => rfl,
    Ascending.mem_ofList_compare_iff, List.mem_map]

theorem ArtifactGroup.conflicts_perm (artifact : Text) (found : List Conflict) :
    (ofConflicts artifact found).conflicts.Perm found := by
  rw [conflicts, ofConflicts, List.flatMap_map]
  exact Buckets.flatMap_filter_keys_perm _ found

theorem CategoryGroup.mem_artifacts_iff :
    a ∈ (ofConflicts category found).artifacts ↔
      (∃ k ∈ found, k.usedBy = a.artifact) ∧
        a = .ofConflicts a.artifact (found.filter (·.usedBy = a.artifact)) := by
  rw [ofConflicts, mem_map_iff_name ArtifactGroup.artifact fun _ => rfl,
    Ascending.mem_ofList_compare_iff, List.mem_map]

theorem CategoryGroup.conflicts_perm (category : Category) (found : List Conflict) :
    (ofConflicts category found).conflicts.Perm found := by
  rw [conflicts, ofConflicts, List.flatMap_map]
  refine .trans ?_ (Buckets.flatMap_filter_keys_perm (·.usedBy) found)
  exact .flatMap (.refl _) fun name _ => ArtifactGroup.conflicts_perm name _

end

/-! ## What the groups list -/

namespace CategoryGroup

variable {conflicts : List Conflict} {g : CategoryGroup} {a : ArtifactGroup} {c : ClassGroup}

/-- Groups are of categories that occur, and have all conflicts of their category. -/
theorem mem_groupConflicts_iff :
    g ∈ groupConflicts conflicts ↔
      (g.category ∈ Category.all ∧ ∃ k ∈ conflicts, k.category = g.category) ∧
        g = .ofConflicts g.category (conflicts.filter (·.category = g.category)) := by
  rw [groupConflicts_eq, mem_map_iff_name CategoryGroup.category fun _ => rfl, List.mem_filter,
    decide_eq_true_eq, List.mem_map]

theorem eq_of_mem_groupConflicts (h : g ∈ groupConflicts conflicts) :
    g = .ofConflicts g.category (conflicts.filter (·.category = g.category)) :=
  (mem_groupConflicts_iff.mp h).2

/-- The groups together have all conflicts of the categories there are. -/
theorem flatMap_conflicts_perm (h : ∀ k ∈ conflicts, k.category ∈ Category.all) :
    ((groupConflicts conflicts).flatMap (·.conflicts)).Perm conflicts := by
  let occurring := Category.all.filter (· ∈ conflicts.map (·.category))
  have hdistinct : occurring.Nodup := List.Nodup.filter _ (by decide)
  have hall : ∀ k ∈ conflicts, k.category ∈ occurring := fun k hk =>
    List.mem_filter.mpr ⟨h k hk, decide_eq_true (List.mem_map_of_mem hk)⟩
  rw [groupConflicts_eq, List.flatMap_map]
  calc
    List.Perm _ (occurring.flatMap fun category => conflicts.filter (·.category = category)) :=
      .flatMap (.refl _) fun category _ => conflicts_perm category _
    List.Perm _ (conflicts.filter (·.category ∈ occurring)) := flatMap_filter_perm hdistinct _
    _ = conflicts := List.filter_eq_self.mpr fun k hk => decide_eq_true (hall k hk)

/-- A class lists the conflicts with its place, in the order in which they were given. -/
theorem conflicts_eq_filter_place (hg : g ∈ groupConflicts conflicts) (ha : a ∈ g.artifacts)
    (hc : c ∈ a.classes) :
    c.conflicts = conflicts.filter (·.place = ⟨g.category, a.artifact, c.name⟩) := by
  rw [eq_of_mem_groupConflicts hg] at ha
  rw [(mem_artifacts_iff.mp ha).2] at hc
  rw [(ArtifactGroup.mem_classes_iff.mp hc).2, List.filter_filter, List.filter_filter]
  refine List.filter_congr fun k _ => ?_
  simp only [Conflict.place, Conflict.Place.mk.injEq, Bool.decide_and]
  ac_rfl

theorem place_eq_of_mem (hg : g ∈ groupConflicts conflicts) (ha : a ∈ g.artifacts)
    (hc : c ∈ a.classes) {k : Conflict} (hk : k ∈ c.conflicts) :
    k.place = ⟨g.category, a.artifact, c.name⟩ := by
  rw [conflicts_eq_filter_place hg ha hc] at hk
  simpa using (List.mem_filter.mp hk).2

theorem listed_eq (h : ∀ a ∈ g.artifacts, ∀ c ∈ a.classes, ∀ k ∈ c.conflicts,
      k.place = ⟨g.category, a.artifact, c.name⟩) :
    g.listed = g.conflicts.map fun k => (k.place, k) := by
  rw [listed, conflicts, List.map_flatMap]
  refine List.flatMap_congr fun a ha => ?_
  rw [ArtifactGroup.conflicts, List.map_flatMap]
  refine List.flatMap_congr fun c hc => List.map_congr_left fun k hk => ?_
  rw [h a ha c hc k hk]

/-- Every conflict is listed once, at its place. -/
theorem flatMap_listed_perm (h : ∀ k ∈ conflicts, k.category ∈ Category.all) :
    ((groupConflicts conflicts).flatMap listed).Perm (conflicts.map fun k => (k.place, k)) := by
  have hlisted : (groupConflicts conflicts).flatMap listed =
      (groupConflicts conflicts).flatMap fun g => g.conflicts.map fun k => (k.place, k) := by
    exact List.flatMap_congr fun g hg => listed_eq fun a ha c hc k hk =>
      place_eq_of_mem hg ha hc hk
  rw [hlisted, ← List.map_flatMap]
  exact (flatMap_conflicts_perm h).map _

theorem artifacts_ne_nil (hg : g ∈ groupConflicts conflicts) : g.artifacts ≠ [] := by
  obtain ⟨⟨-, k, hk, hcategory⟩, hg⟩ := mem_groupConflicts_iff.mp hg
  have hfound : k ∈ conflicts.filter (·.category = g.category) :=
    List.mem_filter.mpr ⟨hk, decide_eq_true hcategory⟩
  rw [hg]
  exact List.ne_nil_of_mem (List.mem_map_of_mem
    (Ascending.mem_ofList_compare_iff.mpr (List.mem_map_of_mem hfound)))

theorem classes_ne_nil (hg : g ∈ groupConflicts conflicts) (ha : a ∈ g.artifacts) :
    a.classes ≠ [] := by
  rw [eq_of_mem_groupConflicts hg] at ha
  obtain ⟨⟨k, hk, hartifact⟩, ha⟩ := mem_artifacts_iff.mp ha
  rw [ha]
  exact List.ne_nil_of_mem (List.mem_map_of_mem (Ascending.mem_ofList_compare_iff.mpr
    (List.mem_map_of_mem (List.mem_filter.mpr ⟨hk, decide_eq_true hartifact⟩))))

theorem conflicts_ne_nil (hg : g ∈ groupConflicts conflicts) (ha : a ∈ g.artifacts)
    (hc : c ∈ a.classes) : c.conflicts ≠ [] := by
  rw [eq_of_mem_groupConflicts hg] at ha
  rw [(mem_artifacts_iff.mp ha).2] at hc
  obtain ⟨⟨k, hk, hname⟩, hc⟩ := ArtifactGroup.mem_classes_iff.mp hc
  rw [hc]
  exact List.ne_nil_of_mem (List.mem_filter.mpr ⟨hk, decide_eq_true hname⟩)

/-- The groups list every conflict at its place, in order and with no empty group. -/
theorem lists_groupConflicts (h : ∀ k ∈ conflicts, k.category ∈ Category.all) :
    Lists (groupConflicts conflicts) conflicts where
  once := flatMap_listed_perm h
  order _ hg _ ha _ hc := conflicts_eq_filter_place hg ha hc
  categories := by
    rw [groupConflicts_eq, List.map_map]
    exact (List.map_id _).symm ▸ List.filter_sublist
  artifacts g hg := by
    rw [eq_of_mem_groupConflicts hg, ofConflicts, List.map_map]
    exact (List.map_id _).symm ▸ Ascending.ordered_ofList compare _
  classes g hg a ha := by
    rw [eq_of_mem_groupConflicts hg] at ha
    rw [(mem_artifacts_iff.mp ha).2, ArtifactGroup.ofConflicts, List.map_map, Ascending.Ordered,
      List.pairwise_map]
    exact Ascending.ordered_ofList compare _
  nonempty _ hg :=
    ⟨artifacts_ne_nil hg, fun _ ha => ⟨classes_ne_nil hg ha, fun _ hc => conflicts_ne_nil hg ha hc⟩⟩

/-! ## Counts and tallies -/

theorem count_eq_length (hg : g ∈ groupConflicts conflicts) (ha : a ∈ g.artifacts) :
    a.count = a.conflicts.length := by
  rw [eq_of_mem_groupConflicts hg] at ha
  rw [(mem_artifacts_iff.mp ha).2]
  rfl

theorem count_eq_sum (hg : g ∈ groupConflicts conflicts) :
    g.count = (g.artifacts.map (·.count)).sum := by
  have hlength : g.count = g.conflicts.length := by
    rw [eq_of_mem_groupConflicts hg]
    exact (conflicts_perm _ _).length_eq.symm
  rw [hlength, CategoryGroup.conflicts, List.length_flatMap]
  exact congrArg List.sum (List.map_congr_left fun a ha => (count_eq_length hg ha).symm)

/-- A category that has no group counts zero, and does not occur. -/
theorem countOf_groupConflicts {category : Category} (hcategory : category ∈ Category.all) :
    countOf (groupConflicts conflicts) category =
      (conflicts.filter (·.category = category)).length := by
  rw [countOf]
  cases hfind : (groupConflicts conflicts).find? (·.category = category) with
  | some g =>
    have hg := List.mem_of_find?_eq_some hfind
    obtain rfl : g.category = category := by simpa using List.find?_some hfind
    exact congrArg CategoryGroup.count (eq_of_mem_groupConflicts hg)
  | none =>
    have hnone : conflicts.filter (·.category = category) = [] := by
      refine List.filter_eq_nil_iff.mpr fun k hk hoccurs => ?_
      have hg : ofConflicts category (conflicts.filter (·.category = category)) ∈
          groupConflicts conflicts :=
        mem_groupConflicts_iff.mpr ⟨⟨hcategory, k, hk, of_decide_eq_true hoccurs⟩, rfl⟩
      simpa [ofConflicts] using List.find?_eq_none.mp hfind _ hg
    rw [hnone]
    rfl

theorem flatMap_filter_of_forall {α β : Type} {f : α → List β} {p : α → Bool} {q : β → Bool}
    {xs : List α} (h : ∀ x ∈ xs, ∀ y ∈ f x, q y = p x) :
    (xs.filter p).flatMap f = (xs.flatMap f).filter q := by
  induction xs with
  | nil => rfl
  | cons x xs ih =>
    have ih := ih fun z hz => h z (by simp [hz])
    have hx := h x (by simp)
    rw [List.flatMap_cons, List.filter_append, ← ih]
    by_cases hp : p x
    · have hall : (f x).filter q = f x := List.filter_eq_self.mpr fun y hy => by simp [hx y hy, hp]
      rw [List.filter_cons_of_pos hp, List.flatMap_cons, hall]
    · have hnone : (f x).filter q = [] :=
        List.filter_eq_nil_iff.mpr fun y hy => by simp [hx y hy, hp]
      rw [List.filter_cons_of_neg hp, hnone, List.nil_append]

/-- The counts of an artifact in all categories add up to the number of its conflicts. -/
theorem sum_counts_eq (h : ∀ k ∈ conflicts, k.category ∈ Category.all) (artifact : Text) :
    ((((groupConflicts conflicts).flatMap (·.artifacts)).filter (·.artifact = artifact)).map
      (·.count)).sum = (conflicts.filter (·.usedBy = artifact)).length := by
  let groups := groupConflicts conflicts
  let artifacts := groups.flatMap (·.artifacts)
  have hcount : ∀ a ∈ artifacts, a.count = a.conflicts.length := by
    intro a ha
    obtain ⟨g, hg, ha⟩ := List.mem_flatMap.mp ha
    exact count_eq_length hg ha
  have husedBy : ∀ a ∈ artifacts, ∀ k ∈ a.conflicts,
      decide (k.usedBy = artifact) = decide (a.artifact = artifact) := by
    intro a ha k hk
    obtain ⟨g, hg, ha⟩ := List.mem_flatMap.mp ha
    obtain ⟨c, hc, hk⟩ := List.mem_flatMap.mp hk
    have hartifact : k.usedBy = a.artifact :=
      congrArg Conflict.Place.artifact (place_eq_of_mem hg ha hc hk)
    rw [hartifact]
  -- A sum of counts is the length of what is listed, and that is all conflicts in another order.
  calc
    _ = ((artifacts.filter (·.artifact = artifact)).map (·.conflicts.length)).sum :=
      congrArg List.sum (List.map_congr_left fun a ha => hcount a (List.mem_of_mem_filter ha))
    _ = ((artifacts.filter (·.artifact = artifact)).flatMap (·.conflicts)).length :=
      List.length_flatMap.symm
    _ = ((artifacts.flatMap (·.conflicts)).filter (·.usedBy = artifact)).length := by
      rw [flatMap_filter_of_forall husedBy]
    _ = ((groups.flatMap CategoryGroup.conflicts).filter (·.usedBy = artifact)).length := by
      rw [List.flatMap_assoc]
      rfl
    _ = (conflicts.filter (·.usedBy = artifact)).length :=
      ((flatMap_conflicts_perm h).filter _).length_eq

end CategoryGroup

namespace Tally

variable {conflicts : List Conflict}

theorem mem_byArtifact_iff {t : Tally} :
    t ∈ byArtifact conflicts ↔
      (∃ k ∈ conflicts, k.usedBy = t.label) ∧
        t = ⟨t.label, (conflicts.filter (·.usedBy = t.label)).length⟩ := by
  rw [(byArtifact_perm conflicts).mem_iff, mem_map_iff_name Tally.label fun _ => rfl,
    Ascending.mem_ofList_compare_iff, List.mem_map]

/-- An artifact that has no tally has no conflicts. -/
theorem valueOf_byArtifact (artifact : Text) :
    valueOf (byArtifact conflicts) artifact =
      (conflicts.filter (·.usedBy = artifact)).length := by
  rw [valueOf]
  cases hfind : (byArtifact conflicts).find? (·.label = artifact) with
  | some t =>
    have ht := (mem_byArtifact_iff.mp (List.mem_of_find?_eq_some hfind)).2
    obtain rfl : t.label = artifact := by simpa using List.find?_some hfind
    exact congrArg value ht
  | none =>
    have hnone : conflicts.filter (·.usedBy = artifact) = [] := by
      refine List.filter_eq_nil_iff.mpr fun k hk hoccurs => ?_
      have ht :
          ⟨artifact, (conflicts.filter (·.usedBy = artifact)).length⟩ ∈ byArtifact conflicts :=
        mem_byArtifact_iff.mpr ⟨⟨k, hk, of_decide_eq_true hoccurs⟩, rfl⟩
      simpa using List.find?_eq_none.mp hfind _ ht
    rw [hnone]
    rfl

theorem labels_byArtifact_perm (conflicts : List Conflict) :
    ((byArtifact conflicts).map (·.label)).Perm
      (Ascending.ofList compare (conflicts.map (·.usedBy))) := by
  refine ((byArtifact_perm conflicts).map _).trans (.of_eq ?_)
  rw [List.map_map]
  exact List.map_id _

theorem sum_values_byArtifact (conflicts : List Conflict) :
    ((byArtifact conflicts).map (·.value)).sum = conflicts.length := by
  have hlength := (Buckets.flatMap_filter_keys_perm (·.usedBy) conflicts).length_eq
  rw [List.length_flatMap] at hlength
  rw [((byArtifact_perm conflicts).map _).sum_eq, List.map_map, ← hlength, Nat.cast_list_sum,
    List.map_map]
  rfl

theorem ranks_byArtifact (conflicts : List Conflict) : Ranks (byArtifact conflicts) conflicts where
  distinct := (labels_byArtifact_perm conflicts).nodup_iff.mpr (Ascending.nodup_ofList compare _)
  labels label := by
    rw [(labels_byArtifact_perm conflicts).mem_iff, Ascending.mem_ofList_compare_iff, List.mem_map]
  ordered := by
    refine (Ascending.ordered_ofList cmp _).imp fun {a b} hlt => ?_
    rcases Ordering.then_eq_lt.mp hlt with hvalue | ⟨hvalue, hlabel⟩
    · exact .inl (Int.compare_eq_lt.mp hvalue)
    · exact .inr ⟨(Std.LawfulEqOrd.eq_of_compare hvalue).symm, hlabel⟩
  total := sum_values_byArtifact conflicts

end Tally

theorem countsAgree_groupConflicts {conflicts : List Conflict}
    (h : ∀ k ∈ conflicts, k.category ∈ Category.all) :
    CountsAgree (groupConflicts conflicts) conflicts where
  artifact _ hg _ ha := CategoryGroup.count_eq_length hg ha
  category _ hg := CategoryGroup.count_eq_sum hg
  byCategory := List.map_congr_left fun category hcategory => by
    rw [CategoryGroup.countOf_groupConflicts hcategory]
  byArtifact artifact := by
    rw [Tally.valueOf_byArtifact, CategoryGroup.sum_counts_eq h]

/-! ## Every list of conflicts that a check finds -/

theorem category_mem_all_of_mem_conflicts {jobs : Int} {project : Artifact}
    {toCheck all : List Artifact} {k : Conflict}
    (h : k ∈ (check jobs project toCheck all).conflicts) : k.category ∈ Category.all := by
  obtain ⟨a, -, c, -, -, m, -, site, -, htells⟩ := exists_tells_of_mem_conflicts h
  -- No rule breaks a site in a way that has only a code.
  cases hcategory : k.category <;> have hbroken := hcategory ▸ htells.broken
  case other => cases hbroken
  all_goals simp [Category.all]

/-- The groups list every conflict once, at its place and in the order of reports, and their counts
agree with the tallies, which count every conflict once and are in order. All of this is so for the
conflicts of every check, and however the conflicts are taken out of the buckets in which they were
gathered. -/
theorem conflicts_grouped_and_counted :
    (∀ jobs project toCheck all, ∀ k ∈ (check jobs project toCheck all).conflicts,
      k.category ∈ Category.all) ∧
    ∀ conflicts : List Conflict, (∀ k ∈ conflicts, k.category ∈ Category.all) →
      CategoryGroup.Lists (groupConflicts conflicts) conflicts ∧
      CountsAgree (groupConflicts conflicts) conflicts ∧
      Tally.Ranks (Tally.byArtifact conflicts) conflicts ∧
      (∀ groups, MakesGroups conflicts Category.all groups ↔ groups = groupConflicts conflicts) ∧
      ∀ tallies, MakesTallies conflicts tallies ↔ tallies = Tally.byArtifact conflicts :=
  ⟨fun _ _ _ _ _ => category_mem_all_of_mem_conflicts, fun conflicts h =>
    ⟨CategoryGroup.lists_groupConflicts h, countsAgree_groupConflicts h,
      Tally.ranks_byArtifact conflicts, fun _ => makesGroups_iff, fun _ => makesTallies_iff⟩⟩

namespace Grouping

/-- A conflict in a method without a name. -/
def sampleConflict (category : Category) (artifact name : Text) : Conflict :=
  ⟨category, ⟨⟨name⟩, default, 0, ⟨"app.Missing"⟩, none, none⟩, artifact, "<unknown>", []⟩

/-- Conflicts of two artifacts, out of order in every way. -/
def sampleConflicts : List Conflict :=
  [sampleConflict .fieldNotFound "b.jar" "app.Last",
    sampleConflict .classNotFound "b.jar" "app.Last",
    sampleConflict .classNotFound "a.jar" "app.Main",
    sampleConflict .classNotFound "b.jar" "app.First"]

theorem sample_conflicts_grouped :
    (∀ k ∈ sampleConflicts, k.category ∈ Category.all) ∧
      CategoryGroup.Lists (groupConflicts sampleConflicts) sampleConflicts ∧
      (groupConflicts sampleConflicts).flatMap (·.conflicts) =
        [sampleConflict .classNotFound "a.jar" "app.Main",
          sampleConflict .classNotFound "b.jar" "app.First",
          sampleConflict .classNotFound "b.jar" "app.Last",
          sampleConflict .fieldNotFound "b.jar" "app.Last"] ∧
      Tally.byArtifact sampleConflicts = [⟨"b.jar", 3⟩, ⟨"a.jar", 1⟩] :=
  ⟨by decide, (conflicts_grouped_and_counted.2 sampleConflicts (by decide)).1, by decide, by decide⟩

end Grouping

end JvmLinkage
