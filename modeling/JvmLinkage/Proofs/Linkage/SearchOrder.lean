import JvmLinkage.Proofs.Linkage.Extension
import JvmLinkage.Proofs.Linkage.Pruning
import Mathlib.Data.Set.Card

/-!
# The order in which artifacts are searched

A world has under every name the first class that a list of artifacts declares, where an artifact
that is given several classes of a name declares the last of them. The order of the artifacts decides
between those that declare a name in common and matters for nothing else: artifacts without names in
common may be searched in any order, and a check comes to the same result.
-/

namespace JvmLinkage

open World

/-! ## First hits -/

namespace Artifact

/-- The artifacts of given names and lists of classes. -/
def ofLists (given : List (Text × List DeclaredClass)) : List Artifact :=
  given.map fun g => ofClasses g.1 g.2

/-- Some list has a class of the name. -/
def Declared (given : List (Text × List DeclaredClass)) (name : ClassName) : Prop :=
  ∃ g ∈ given, ∃ c ∈ g.2, c.name = name

/-- A class is the last one of its name in a list, and no list before that one has one of the name. -/
def FirstHit (given : List (Text × List DeclaredClass)) (name : ClassName) (source : Text)
    (c : DeclaredClass) : Prop :=
  ∃ before front back after, given = before ++ (source, front ++ c :: back) :: after ∧
    c.name = name ∧ (∀ g ∈ before, ∀ d ∈ g.2, d.name ≠ name) ∧ ∀ d ∈ back, d.name ≠ name

variable {given : List (Text × List DeclaredClass)} {name : ClassName} {source : Text}
  {c : DeclaredClass} {a b : Artifact} {s : Supply}

theorem supply?_eq_some_iff :
    a.supply? name = some s ↔ a.find? name = some s.declared ∧ s.source = a.name := by
  rw [supply?, Option.map_eq_some_iff]
  constructor
  · rintro ⟨c, hc, rfl⟩
    exact ⟨hc, rfl⟩
  · rintro ⟨hc, hsource⟩
    refine ⟨s.declared, hc, ?_⟩
    cases s
    cases hsource
    rfl

theorem supply?_ofClasses_eq_none_iff {a : Text} {classes : List DeclaredClass} :
    (ofClasses a classes).supply? name = none ↔ ∀ c ∈ classes, c.name ≠ name := by
  rw [supply?, Option.map_eq_none_iff, find?_ofClasses]
  simp

/-- The first list with a class of the name decides. -/
theorem findSome?_supply?_ofLists :
    (ofLists given).findSome? (·.supply? name) = some ⟨c, source⟩ ↔
      FirstHit given name source c := by
  rw [ofLists, List.findSome?_map, List.findSome?_eq_some_iff]
  simp only [Function.comp_apply, supply?_eq_some_iff, supply?_ofClasses_eq_none_iff,
    find?_ofClasses_eq_some_iff]
  constructor
  · rintro ⟨before, ⟨_, _⟩, after, hgiven, ⟨⟨hname, front, back, rfl, hback⟩, rfl⟩, hbefore⟩
    exact ⟨before, front, back, after, hgiven, hname, hbefore, hback⟩
  · rintro ⟨before, front, back, after, hgiven, hname, hbefore, hback⟩
    exact ⟨before, _, after, hgiven, ⟨⟨hname, front, back, rfl, hback⟩, rfl⟩, hbefore⟩

theorem findSome?_supply?_ofLists_eq_none_iff :
    (ofLists given).findSome? (·.supply? name) = none ↔ ¬ Declared given name := by
  rw [ofLists, List.findSome?_map, List.findSome?_eq_none_iff]
  simp [Declared, supply?_ofClasses_eq_none_iff]

/-! ## Artifacts without names in common -/

/-- The artifacts have no class name in common. -/
def Disjoint (a b : Artifact) : Prop := ∀ c ∈ a.classes, ∀ d ∈ b.classes, c.name ≠ d.name

instance : DecidableRel Disjoint := fun a b =>
  inferInstanceAs (Decidable (∀ c ∈ a.classes, ∀ d ∈ b.classes, c.name ≠ d.name))

theorem Disjoint.symm (h : Disjoint a b) : Disjoint b a := fun c hc d hd => (h d hd c hc).symm

theorem Disjoint.supply?_eq_none (h : Disjoint a b) (hs : a.supply? name = some s) :
    b.supply? name = none := by
  obtain ⟨hfind, -⟩ := supply?_eq_some_iff.mp hs
  obtain ⟨hc, rfl⟩ := find?_eq_some_iff.mp hfind
  rw [supply?, Option.map_eq_none_iff, Option.eq_none_iff_forall_ne_some]
  intro d hd
  obtain ⟨hd, hname⟩ := find?_eq_some_iff.mp hd
  exact h _ hc _ hd hname.symm

/-- At most one of the artifacts has a name, so it does not matter when that one is searched. -/
theorem findSome?_supply?_of_perm {all all' : List Artifact} (h : all'.Perm all)
    (hdisjoint : all.Pairwise Disjoint) (name : ClassName) :
    all'.findSome? (·.supply? name) = all.findSome? (·.supply? name) := by
  have hdisjoint' : all'.Pairwise Disjoint := hdisjoint.perm h.symm fun hab => hab.symm
  clear hdisjoint
  induction h with
  | nil => rfl
  | cons a _ ih =>
    rw [List.findSome?_cons, List.findSome?_cons, ih hdisjoint'.of_cons]
  | swap a b rest =>
    have hpair : Disjoint b a := List.rel_of_pairwise_cons hdisjoint' List.mem_cons_self
    simp only [List.findSome?_cons]
    cases hb : b.supply? name with
    | none => rfl
    | some s => rw [hpair.supply?_eq_none hb]
  | trans hfirst _ ih ih' =>
    exact (ih hdisjoint').trans (ih' (hdisjoint'.perm hfirst fun hab => hab.symm))

end Artifact

/-! ## Worlds that supply the same -/

namespace World

variable {w w' : World} {name : ClassName} {source : Text} {c : DeclaredClass}

/-- Under every name the two worlds supply the same class from the same source. -/
def Alike (w w' : World) : Prop := ∀ name : ClassName, w'.supplies[name]? = w.supplies[name]?

theorem find?_and_sourceOf?_eq_some_iff :
    w.find? name = some c ∧ w.sourceOf? name = some source ↔
      w.supplies[name]? = some ⟨c, source⟩ := by
  rw [find?, sourceOf?]
  cases w.supplies[name]? with
  | none => simp
  | some s =>
    cases s
    simp

/-- There are as many supplied classes as names. -/
theorem size_eq_ncard (w : World) : w.size = {name | (w.find? name).isSome}.ncard := by
  have hnames : {name | (w.find? name).isSome} = ↑w.supplies.keys.toFinset := by
    ext name
    simp [find?]
  rw [hnames, Set.ncard_coe_finset, List.toFinset_card_of_nodup Std.TreeMap.nodup_keys,
    Std.TreeMap.length_keys]
  rfl

namespace Alike

variable (h : Alike w w')

include h

theorem find?_eq (name : ClassName) : w'.find? name = w.find? name := by
  rw [find?, find?, h name]

theorem size_eq : w'.size = w.size := by
  rw [size_eq_ncard, size_eq_ncard]
  simp only [h.find?_eq]

theorem resolves_eq (hc : w.find? name = some c) (answer : DeclaredClass → Option Bool) :
    w'.resolves answer c = w.resolves answer c := by
  have hforth : Extends w w' := fun name s hs => (h name).trans hs
  have hback : Extends w' w := fun name s hs => (h name).symm.trans hs
  rw [Bool.eq_iff_iff]
  exact ⟨resolves_of_extends hback (hforth.find? hc), resolves_of_extends hforth hc⟩

theorem explore_eq (n : Nat) (queue : List (DeclaredClass × Edge)) (s : ReachableSet) :
    ReachableSet.explore w' n queue s = ReachableSet.explore w n queue s := by
  have hsuccessors (s : ReachableSet) (c : DeclaredClass) : s.successors w' c = s.successors w c := by
    simp only [ReachableSet.successors, h.find?_eq]
  induction n generalizing queue s with
  | zero => rfl
  | succ n ih => simp only [ReachableSet.explore, hsuccessors, ih]

theorem ofSeeds_eq (seeds : List DeclaredClass) :
    ReachableSet.ofSeeds seeds w' = ReachableSet.ofSeeds seeds w := by
  rw [ReachableSet.ofSeeds, ReachableSet.ofSeeds, h.size_eq, h.explore_eq]

theorem conflict?_eq (a : Artifact) (c : DeclaredClass) (m : DeclaredMethod) (site : Site) :
    Site.conflict? w' a c m site = Site.conflict? w a c m site :=
  Site.conflict?_congr (h site.owner) (fun _ answer hd => h.resolves_eq hd answer) a m

end Alike

end World

/-- A check depends on a list of artifacts through what their world supplies. -/
theorem check_eq_of_alike {all all' : List Artifact}
    (h : Alike (ofArtifacts all) (ofArtifacts all')) (jobs jobs' : Int) (project : Artifact)
    (toCheck : List Artifact) :
    let r := check jobs project toCheck all
    let r' := check jobs' project toCheck all'
    r'.reachable = r.reachable ∧ r'.conflicts = r.conflicts ∧ r'.checked = r.checked := by
  intro r r'
  have hreachable : r'.reachable = r.reachable := h.ofSeeds_eq project.classes
  have hsaid (a : Artifact) (c : DeclaredClass) (m : DeclaredMethod) :
      Site.conflict? r'.world a c m = Site.conflict? r.world a c m :=
    funext (h.conflict?_eq a c m)
  refine ⟨hreachable, ?_, ?_⟩
  · simp only [r, r', check_conflicts_eq] at hreachable hsaid ⊢
    simp only [hreachable, hsaid]
  · simp only [r, r', check_checked_eq] at hreachable ⊢
    rw [hreachable]

/-- The world has under every name what the first artifact with a class of that name has, and of an
artifact the last class that it was given. It has nothing under other names, and as many classes as
there are names. Where no two artifacts have a name in common, their order does not matter: a check
reaches the same classes in the same order over the same paths and has the same conflicts. -/
theorem world_has_first_hits (given : List (Text × List DeclaredClass)) :
    let all := Artifact.ofLists given
    let w := ofArtifacts all
    (∀ name source c, w.find? name = some c ∧ w.sourceOf? name = some source ↔
      Artifact.FirstHit given name source c) ∧
    (∀ name, (w.find? name = none ↔ ¬ Artifact.Declared given name) ∧
      (w.sourceOf? name = none ↔ ¬ Artifact.Declared given name)) ∧
    w.size = {name | Artifact.Declared given name}.ncard ∧
    ∀ all' : List Artifact, all'.Perm all → all.Pairwise Artifact.Disjoint →
      ∀ (jobs jobs' : Int) (project : Artifact) (toCheck : List Artifact),
        let r := check jobs project toCheck all
        let r' := check jobs' project toCheck all'
        r'.conflicts = r.conflicts ∧ r'.reachable.order = r.reachable.order ∧
          (∀ name, r'.reachable.pathTo? name = r.reachable.pathTo? name) ∧
          r'.checked = r.checked := by
  intro all w
  have hnone (name : ClassName) : w.supplies[name]? = none ↔ ¬ Artifact.Declared given name := by
    rw [supplies_ofArtifacts]
    exact Artifact.findSome?_supply?_ofLists_eq_none_iff
  have hfind (name : ClassName) : w.find? name = none ↔ ¬ Artifact.Declared given name := by
    rw [find?, Option.map_eq_none_iff, hnone]
  refine ⟨?_, ?_, ?_, ?_⟩
  · intro name source c
    rw [find?_and_sourceOf?_eq_some_iff, supplies_ofArtifacts]
    exact Artifact.findSome?_supply?_ofLists
  · intro name
    refine ⟨hfind name, ?_⟩
    rw [sourceOf?, Option.map_eq_none_iff, hnone]
  · have hnames : {name | (w.find? name).isSome} = {name | Artifact.Declared given name} := by
      ext name
      change (w.find? name).isSome = true ↔ Artifact.Declared given name
      rw [← Option.ne_none_iff_isSome, ne_eq, hfind, not_not]
    rw [size_eq_ncard, hnames]
  · intro all' hperm hdisjoint jobs jobs' project toCheck r r'
    have halike : Alike w (ofArtifacts all') := by
      intro name
      rw [supplies_ofArtifacts, supplies_ofArtifacts]
      exact Artifact.findSome?_supply?_of_perm hperm hdisjoint name
    obtain ⟨hreachable, hconflicts, hchecked⟩ :=
      check_eq_of_alike halike jobs jobs' project toCheck
    exact ⟨hconflicts, congrArg (·.order) hreachable,
      fun name => congrArg (·.pathTo? name) hreachable, hchecked⟩

namespace SearchOrder

/-- A class with parents. -/
def sampleClass (name : Text) (parents : List ClassName) : DeclaredClass :=
  ((ClassBuilder.start ⟨name⟩).addParents parents).build

/-- A project whose class calls what the library does not declare. The library is given two classes
of a name. -/
def sampleLists : List (Text × List DeclaredClass) := [
  ("project", Pruning.sampleProject.classes),
  ("library", [sampleClass "b.Base" [], sampleClass "b.Base" [⟨"b.Root"⟩]]),
  ("roots", [sampleClass "b.Root" []])]

/-- A second library, with another class of a name that the first one has. -/
def sampleShadowed : Text × List DeclaredClass := ("shadowed", [sampleClass "b.Base" [⟨"b.Other"⟩]])

/-- The last class of the first library stands for the name. Searching the three artifacts backwards
does not change what a check finds. -/
theorem sample_world_has_first_hits :
    let all := Artifact.ofLists sampleLists
    let w := ofArtifacts (Artifact.ofLists (sampleLists ++ [sampleShadowed]))
    let r := check 1 Pruning.sampleProject all all
    let r' := check 2 Pruning.sampleProject all all.reverse
    (w.find? ⟨"b.Base"⟩ = some (sampleClass "b.Base" [⟨"b.Root"⟩]) ∧
      w.sourceOf? ⟨"b.Base"⟩ = some (Text.ofString "library")) ∧
      all.reverse.Perm all ∧ all.Pairwise Artifact.Disjoint ∧
      r.conflicts.length = 1 ∧ r'.conflicts = r.conflicts ∧
      r'.reachable.order = r.reachable.order := by
  intro all w r r'
  obtain ⟨hhits, -⟩ := world_has_first_hits (sampleLists ++ [sampleShadowed])
  obtain ⟨-, -, -, hcheck⟩ := world_has_first_hits sampleLists
  have hdisjoint : all.Pairwise Artifact.Disjoint := by decide +kernel
  obtain ⟨hconflicts, horder, -⟩ := hcheck all.reverse (List.reverse_perm all) hdisjoint 1 2
    Pruning.sampleProject all
  refine ⟨(hhits _ _ _).mpr ?_, List.reverse_perm all, hdisjoint, by decide +kernel, hconflicts,
    horder⟩
  exact ⟨[_], [_], [], [_, _], rfl, rfl, by decide +kernel, by simp⟩

end SearchOrder

end JvmLinkage
