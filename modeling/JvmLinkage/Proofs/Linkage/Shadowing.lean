import JvmLinkage.Proofs.Checking
import JvmLinkage.Proofs.Linkage.World
import JvmLinkage.Proofs.Reachability.Closure

/-!
# Classes declared twice

Where several artifacts declare a class, the world has the declaration of the first and the later
ones are shadowed. A check goes through the reached names of every artifact that it is given, so it
validates shadowed declarations too. All else that it validates is what the world supplies, from the
artifact to which conflicts are attributed, and at most once for every reached class.
-/

namespace JvmLinkage

/-- A class as the artifact at a place of a list declares it. -/
structure Declaration (all : List Artifact) where
  place : Fin all.length
  declared : DeclaredClass
  mem_classes : declared ∈ (all.get place).classes

namespace Declaration

variable {all : List Artifact}

/-- The declarations of the artifact at a place. -/
def ofPlace (i : Fin all.length) : List (Declaration all) :=
  (all.get i).classes.attach.map fun c => ⟨i, c.1, c.2⟩

def artifact (d : Declaration all) : Artifact := all.get d.place

def name (d : Declaration all) : ClassName := d.declared.name

/-- An artifact that is searched earlier declares the class as well. -/
def Shadowed (d : Declaration all) : Prop :=
  ∃ a ∈ all.take d.place, ∃ c ∈ a.classes, c.name = d.name

instance (d : Declaration all) : Decidable d.Shadowed :=
  inferInstanceAs (Decidable (∃ a ∈ all.take d.place, ∃ c ∈ a.classes, c.name = d.name))

/-- The declarations that artifacts at some places have under reached names. -/
def reached (s : ReachableSet) (places : List (Fin all.length)) : List (Declaration all) :=
  (places.flatMap ofPlace).filter fun d => s.contains d.name

variable {i : Fin all.length} {d e : Declaration all}

theorem mem_ofPlace : d ∈ ofPlace i ↔ d.place = i := by
  simp only [ofPlace, List.mem_map, List.mem_attach, true_and, Subtype.exists]
  constructor
  · rintro ⟨c, hc, rfl⟩
    rfl
  · rintro rfl
    exact ⟨d.declared, d.mem_classes, rfl⟩

theorem mem_reached {s : ReachableSet} {places : List (Fin all.length)} :
    d ∈ reached s places ↔ d.place ∈ places ∧ s.contains d.name = true := by
  simp [reached, List.mem_filter, List.mem_flatMap, mem_ofPlace]

/-- Artifact by artifact, the declarations under reached names are the classes that are checked. -/
theorem flatMap_reached {β : Type} (f : Artifact → DeclaredClass → List β) (s : ReachableSet)
    (places : List (Fin all.length)) :
    (reached s places).flatMap (fun d => f d.artifact d.declared) =
      (places.map all.get).flatMap fun a => (Checker.checkedClasses s a).flatMap (f a) := by
  have hplace (i : Fin all.length) :
      ((ofPlace i).filter fun d => s.contains d.name).flatMap (fun d => f d.artifact d.declared) =
        (Checker.checkedClasses s (all.get i)).flatMap (f (all.get i)) := by
    conv_rhs => rw [Checker.checkedClasses, ← List.attach_map_subtype_val (all.get i).classes]
    rw [ofPlace, List.filter_map, List.filter_map, List.flatMap_map, List.flatMap_map]
    rfl
  rw [reached, List.filter_flatMap, List.flatMap_assoc, List.flatMap_map]
  exact List.flatMap_congr fun i _ => hplace i

/-! ## What the world has -/

/-- The world has what an artifact searched earlier has under the name, and else the declaration. -/
theorem supplies_name (d : Declaration all) :
    (World.ofArtifacts all).supplies[d.name]? =
      ((all.take d.place).findSome? (·.supply? d.name)).or
        (some ⟨d.declared, d.artifact.name⟩) := by
  have hsplit : all = all.take d.place ++ d.artifact :: all.drop (d.place + 1) := by
    simp [artifact]
  have hfind : d.artifact.find? d.name = some d.declared :=
    Artifact.find?_eq_some_iff.mpr ⟨d.mem_classes, rfl⟩
  calc (World.ofArtifacts all).supplies[d.name]?
    _ = all.findSome? (·.supply? d.name) := World.supplies_ofArtifacts all d.name
    _ = (all.take d.place ++ d.artifact :: all.drop (d.place + 1)).findSome?
          (·.supply? d.name) := congrArg (List.findSome? (·.supply? d.name)) hsplit
    _ = _ := by
        rw [List.findSome?_append, List.findSome?_cons, Artifact.supply?, hfind, Option.map_some]

/-- The first declaration of a class is the one that the world has. -/
theorem supplies_of_not_shadowed (h : ¬ d.Shadowed) :
    (World.ofArtifacts all).supplies[d.name]? = some ⟨d.declared, d.artifact.name⟩ := by
  have hbefore : (all.take d.place).findSome? (·.supply? d.name) = none := by
    refine List.findSome?_eq_none_iff.mpr fun a ha => ?_
    rw [Artifact.supply?, Option.map_eq_none_iff, Option.eq_none_iff_forall_ne_some]
    intro c hc
    obtain ⟨hmem, hname⟩ := Artifact.find?_eq_some_iff.mp hc
    exact h ⟨a, ha, c, hmem, hname⟩
  rw [supplies_name, hbefore, Option.none_or]

/-- For a shadowed declaration the world has one of an artifact that is searched earlier. -/
theorem exists_supplies_of_shadowed (h : d.Shadowed) :
    ∃ a ∈ all.take d.place, ∃ c ∈ a.classes,
      (World.ofArtifacts all).supplies[d.name]? = some ⟨c, a.name⟩ := by
  have hsome : ((all.take d.place).findSome? (·.supply? d.name)).isSome := by
    obtain ⟨a, ha, c, hc, hname⟩ := h
    refine List.findSome?_isSome_iff.mpr ⟨a, ha, ?_⟩
    rw [Artifact.supply?, Artifact.find?_eq_some_iff.mpr ⟨hc, hname⟩]
    rfl
  obtain ⟨s, hs⟩ := Option.isSome_iff_exists.mp hsome
  obtain ⟨a, ha, hsupply⟩ := List.exists_of_findSome?_eq_some hs
  obtain ⟨c, hfind, rfl⟩ := Option.map_eq_some_iff.mp hsupply
  refine ⟨a, ha, c, (Artifact.find?_eq_some_iff.mp hfind).1, ?_⟩
  rw [supplies_name, hs, Option.some_or]

theorem find?_of_not_shadowed (h : ¬ d.Shadowed) :
    (World.ofArtifacts all).find? d.name = some d.declared := by
  rw [World.find?, supplies_of_not_shadowed h, Option.map_some]

theorem sourceOf?_of_not_shadowed (h : ¬ d.Shadowed) :
    (World.ofArtifacts all).sourceOf? d.name = some d.artifact.name := by
  rw [World.sourceOf?, supplies_of_not_shadowed h, Option.map_some]

/-! ## Counting -/

theorem shadowed_of_lt (hname : d.name = e.name) (hlt : d.place < e.place) : e.Shadowed := by
  refine ⟨d.artifact, ?_, d.declared, d.mem_classes, hname⟩
  exact List.mem_take_iff_getElem.mpr ⟨d.place, by simpa using hlt, rfl⟩

/-- No two declarations of a name are first. -/
theorem eq_of_not_shadowed (hd : ¬ d.Shadowed) (he : ¬ e.Shadowed) (hname : d.name = e.name) :
    d = e := by
  -- Of two places the later one is shadowed, and at one place a name is declared once.
  rcases lt_trichotomy d.place e.place with hlt | hplace | hlt
  · exact absurd (shadowed_of_lt hname hlt) he
  · cases d with | mk i c hc =>
    cases e with | mk j c' hc' =>
    obtain rfl : i = j := hplace
    obtain rfl : c = c' := Artifact.eq_of_name_eq hc hc' hname
    rfl
  · exact absurd (shadowed_of_lt hname.symm hlt) hd

theorem nodup_ofPlace (i : Fin all.length) : (ofPlace i).Nodup := by
  have hclasses : (all.get i).classes.Nodup := by
    refine (all.get i).classes_ordered.imp ?_
    rintro c _ hlt rfl
    rw [DeclaredClass.cmp, Std.ReflOrd.compare_self] at hlt
    contradiction
  refine (List.nodup_attach.mpr hclasses).map ?_
  intro c c' heq
  exact Subtype.ext (congrArg declared heq)

theorem nodup_reached (s : ReachableSet) {places : List (Fin all.length)} (h : places.Nodup) :
    (reached s places).Nodup := by
  refine List.Nodup.filter _ (List.nodup_flatMap.mpr ⟨fun i _ => nodup_ofPlace i, h.imp ?_⟩)
  intro i j hne d hi hj
  exact hne (mem_ofPlace.mp hi ▸ mem_ofPlace.mp hj)

end Declaration

/-! ## What is validated -/

namespace Reachability

variable {project : Artifact} {rest : List Artifact}

/-- With the project searched first, every reached name is supplied. -/
theorem isSome_find?_of_contains {name : ClassName}
    (h : (ReachableSet.ofSeeds project.classes
      (World.ofArtifacts (project :: rest))).contains name = true) :
    ((World.ofArtifacts (project :: rest)).find? name).isSome := by
  obtain ⟨⟨_, hrun⟩, -⟩ :=
    exists_run_ofSeeds project.classes (World.ofArtifacts (project :: rest))
  rcases hrun.known ((hrun.contains_iff name).mp h) with ⟨c, hc, rfl⟩ | hsupplied
  · let d : Declaration (project :: rest) := ⟨⟨0, by simp⟩, c, hc⟩
    have hfirst : ¬ d.Shadowed := by simp [Declaration.Shadowed, d]
    exact Option.isSome_of_eq_some (Declaration.find?_of_not_shadowed hfirst)
  · exact hsupplied

theorem length_le_size {seeds : List DeclaredClass} {world : World} {names : List ClassName}
    (hnodup : names.Nodup)
    (hnames : ∀ name ∈ names, (ReachableSet.ofSeeds seeds world).contains name = true) :
    names.length ≤ (ReachableSet.ofSeeds seeds world).size := by
  obtain ⟨⟨_, hrun⟩, -⟩ := exists_run_ofSeeds seeds world
  refine (List.subperm_of_subset hnodup ?_).length_le
  exact fun name hname => (hrun.contains_iff name).mp (hnames name hname)

end Reachability

theorem check_conflicts_eq_reached (jobs : Int) (project : Artifact) (all : List Artifact)
    (places : List (Fin all.length)) :
    let r := check jobs project (places.map all.get) all
    r.conflicts = (Declaration.reached r.reachable places).flatMap fun d =>
      Checker.checkClass r.world d.artifact.name d.declared := by
  intro r
  rw [Declaration.flatMap_reached fun a => Checker.checkClass r.world a.name]
  exact check_conflicts_eq_flatMap ..

theorem check_checked_eq_reached (jobs : Int) (project : Artifact) (all : List Artifact)
    (places : List (Fin all.length)) :
    let r := check jobs project (places.map all.get) all
    r.checked = (Declaration.reached r.reachable places).length := by
  intro r
  have hmap : (Declaration.reached r.reachable places).map (·.declared) =
      (places.map all.get).flatMap (Checker.checkedClasses r.reachable) := by
    rw [List.map_eq_flatMap]
    simpa using Declaration.flatMap_reached (fun _ c => [c]) r.reachable places
  rw [← List.length_map (·.declared), hmap]
  exact check_checked_eq ..

theorem exists_reached_of_mem_conflicts {jobs : Int} {project : Artifact} {all : List Artifact}
    {places : List (Fin all.length)} {k : Conflict}
    (h : k ∈ (check jobs project (places.map all.get) all).conflicts) :
    ∃ d ∈ Declaration.reached (check jobs project (places.map all.get) all).reachable places,
      k.dependency.fromClass = d.name ∧ k.usedBy = d.artifact.name := by
  rw [check_conflicts_eq_reached] at h
  obtain ⟨d, hd, hk⟩ := List.mem_flatMap.mp h
  rw [Checker.checkClass_eq] at hk
  simp only [List.mem_flatMap, List.mem_filterMap] at hk
  obtain ⟨m, -, site, -, hsite⟩ := hk
  have htells := Site.conflict?_eq_some_iff.mp hsite
  refine ⟨d, hd, ?_, htells.usedBy⟩
  rw [htells.dependency]
  cases site <;> rfl

/-- No more first declarations are validated than there are reached classes. -/
theorem length_reached_not_shadowed_le {all : List Artifact} {places : List (Fin all.length)}
    (hplaces : places.Nodup) (seeds : List DeclaredClass) (world : World) :
    ((Declaration.reached (ReachableSet.ofSeeds seeds world) places).filter
      fun d => ¬ d.Shadowed).length ≤ (ReachableSet.ofSeeds seeds world).size := by
  rw [← List.length_map Declaration.name]
  refine Reachability.length_le_size ?_ ?_
  · -- Names tell first declarations apart, which they do not do for shadowed ones.
    refine ((Declaration.nodup_reached _ hplaces).filter _).map_on ?_
    intro d hd e he hname
    refine Declaration.eq_of_not_shadowed ?_ ?_ hname
    · simpa using (List.mem_filter.mp hd).2
    · simpa using (List.mem_filter.mp he).2
  · intro name hname
    obtain ⟨d, hd, rfl⟩ := List.mem_map.mp hname
    exact (Declaration.mem_reached.mp (List.mem_filter.mp hd).1).2

/-- The artifacts at some places of a list are checked against the world of the whole list, which the
project begins. What is validated is what they declare under reached names, and every reached name
is supplied. The first declaration of a class is the one that the world has, and a shadowed one
stands behind that of an earlier artifact. Conflicts are attributed to the artifact that declares
the class they are found in, which supplies it unless the declaration is shadowed. Where the places
are distinct, no more first declarations are validated than there are reached classes. -/
theorem check_validates_supplied_unless_shadowed (jobs : Int) (project : Artifact)
    (rest : List Artifact) (places : List (Fin (project :: rest).length)) :
    let all := project :: rest
    let r := check jobs project (places.map all.get) all
    let validated := Declaration.reached r.reachable places
    (∀ d : Declaration all,
      d ∈ validated ↔ d.place ∈ places ∧ r.reachable.contains d.name = true) ∧
    (r.conflicts = validated.flatMap fun d =>
      Checker.checkClass r.world d.artifact.name d.declared) ∧
    r.checked = validated.length ∧
    (∀ name, r.reachable.contains name = true → (r.world.find? name).isSome) ∧
    (∀ d ∈ validated, ¬ d.Shadowed →
      r.world.find? d.name = some d.declared ∧
        r.world.sourceOf? d.name = some d.artifact.name) ∧
    (∀ d ∈ validated, d.Shadowed → ∃ a ∈ all.take d.place, ∃ c ∈ a.classes,
      r.world.find? d.name = some c ∧ r.world.sourceOf? d.name = some a.name) ∧
    (∀ k ∈ r.conflicts, ∃ d ∈ validated,
      k.dependency.fromClass = d.name ∧ k.usedBy = d.artifact.name ∧
        (¬ d.Shadowed → r.world.sourceOf? k.dependency.fromClass = some k.usedBy)) ∧
    (places.Nodup → (validated.filter fun d => ¬ d.Shadowed).length ≤ r.reachable.size) ∧
    (places.Nodup → (∀ d ∈ validated, ¬ d.Shadowed) → r.checked ≤ r.reachable.size) := by
  intro all r validated
  have hchecked : r.checked = validated.length := check_checked_eq_reached ..
  have hcount (hplaces : places.Nodup) :
      (validated.filter fun d => ¬ d.Shadowed).length ≤ r.reachable.size :=
    length_reached_not_shadowed_le hplaces ..
  refine ⟨fun d => Declaration.mem_reached, check_conflicts_eq_reached .., hchecked,
    fun name => Reachability.isSome_find?_of_contains, ?_, ?_, ?_, hcount, ?_⟩
  · intro d _ hfirst
    exact ⟨Declaration.find?_of_not_shadowed hfirst, Declaration.sourceOf?_of_not_shadowed hfirst⟩
  · intro d _ hshadowed
    obtain ⟨a, ha, c, hc, hsupplies⟩ := Declaration.exists_supplies_of_shadowed hshadowed
    have hworld : r.world.supplies[d.name]? = some ⟨c, a.name⟩ := hsupplies
    refine ⟨a, ha, c, hc, ?_, ?_⟩
    · rw [World.find?, hworld, Option.map_some]
    · rw [World.sourceOf?, hworld, Option.map_some]
  · intro k hk
    obtain ⟨d, hd, hname, husedBy⟩ := exists_reached_of_mem_conflicts hk
    refine ⟨d, hd, hname, husedBy, fun hfirst => ?_⟩
    rw [hname, husedBy]
    exact Declaration.sourceOf?_of_not_shadowed hfirst
  · intro hplaces hfirst
    have hall : validated.filter (fun d => ¬ d.Shadowed) = validated :=
      List.filter_eq_self.mpr fun d hd => by simpa using hfirst d hd
    rw [hchecked, ← hall]
    exact hcount hplaces

namespace Shadowing

/-- A method that calls another one of the same signature. -/
def sampleMethod (name : Text) (calls : List (ClassName × Text)) : DeclaredMethod :=
  ⟨⟨name, [], .void, true⟩, 1,
    calls.map fun (owner, called) => ⟨owner, ⟨called, [], .void, true⟩, 1, []⟩, []⟩

def sampleProject : Artifact :=
  .ofClasses "project" [ClassBuilder.build
    { name := ⟨"a.Main"⟩, methods := [sampleMethod "main" [(⟨"b.Base"⟩, "run")]] }]

/-- A library with a class whose method makes some calls. -/
def sampleLibrary (name : Text) (calls : List (ClassName × Text)) : Artifact :=
  .ofClasses name [ClassBuilder.build
    { name := ⟨"b.Base"⟩, methods := [sampleMethod "run" calls], methods_distinct := by simp }]

/-- Both libraries declare the class that the project calls. That of the second one, which nothing
would load, calls a class that there is not. -/
def sampleLibraries : List Artifact :=
  [sampleLibrary "first" [], sampleLibrary "second" [(⟨"c.Gone"⟩, "gone")]]

/-- A conflict is reported from a shadowed class and attributed to an artifact that does not supply
the class, and more classes are validated than are reached. -/
theorem shadowed_class_is_validated :
    let all := sampleProject :: sampleLibraries
    let r := check 1 sampleProject all all
    all.Nodup ∧
      (∃ a ∈ all, ∃ d ∈ a.classes, ∃ k ∈ r.conflicts,
        k.dependency.fromClass = d.name ∧ k.usedBy = a.name ∧
          r.world.find? d.name ≠ some d ∧ r.world.sourceOf? d.name ≠ some a.name) ∧
      r.checked = 3 ∧ r.reachable.size = 2 := by
  decide +kernel

/-- Of the three declarations that are validated one is shadowed, and the others are no more than the
reached classes. -/
theorem sample_check_validates_supplied_unless_shadowed :
    let all := sampleProject :: sampleLibraries
    let places := List.finRange all.length
    let r := check 1 sampleProject (places.map all.get) all
    let validated := Declaration.reached r.reachable places
    (places.Nodup ∧ validated.length = 3) ∧
      (∀ d ∈ validated, ¬ d.Shadowed →
        r.world.find? d.name = some d.declared ∧
          r.world.sourceOf? d.name = some d.artifact.name) ∧
      (validated.filter fun d => ¬ d.Shadowed).length = 2 ∧
      (validated.filter fun d => ¬ d.Shadowed).length ≤ r.reachable.size := by
  intro all places
  obtain ⟨-, -, -, -, hfirst, -, -, hcount, -⟩ :=
    check_validates_supplied_unless_shadowed 1 sampleProject sampleLibraries places
  have hplaces : places.Nodup := List.nodup_finRange _
  exact ⟨⟨hplaces, by decide +kernel⟩, hfirst, by decide +kernel, hcount hplaces⟩

end Shadowing

end JvmLinkage
