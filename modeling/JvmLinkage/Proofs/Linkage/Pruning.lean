import JvmLinkage.Proofs.Checking
import JvmLinkage.Proofs.Linkage.Resolution
import JvmLinkage.Proofs.Linkage.World
import JvmLinkage.Proofs.Reachability.Closure

/-!
# Unreachable classes are never looked at

A set of reached classes is closed: what a reached class refers to is reached as well, unless nothing
supplies it. Two worlds that agree about the names of a closed set, and about the names that the
first one does not supply, cannot be told apart by the search for reachable classes, nor by the
resolution of members, nor by what is said about a site.
-/

namespace JvmLinkage

namespace World

/-- Two worlds supply the same under the names of reached classes and under those names that the
first one does not supply. -/
def AgreeOn (s : ReachableSet) (w w' : World) : Prop :=
  ∀ name, s.contains name = true ∨ w.find? name = none → w'.supplies[name]? = w.supplies[name]?

/-- A class of the world whose name is reached. -/
structure Reached (s : ReachableSet) (w : World) (c : DeclaredClass) : Prop where
  contains : s.contains c.name = true
  supplied : w.find? c.name = some c

/-- Reached classes refer to names that are reached or that nothing supplies. -/
def Closed (s : ReachableSet) (w : World) : Prop :=
  ∀ {c : DeclaredClass} {kind : Reference} {target : ClassName}, Reached s w c →
    c.Refers kind target → s.contains target = true ∨ w.find? target = none

variable {s : ReachableSet} {w w' : World} {c d : DeclaredClass} {kind : Reference}
  {target : ClassName}

theorem Closed.supplies_eq (hclosed : Closed s w) (hagree : AgreeOn s w w') (hc : Reached s w c)
    (href : c.Refers kind target) : w'.supplies[target]? = w.supplies[target]? :=
  hagree target (hclosed hc href)

theorem Closed.find?_eq (hclosed : Closed s w) (hagree : AgreeOn s w w') (hc : Reached s w c)
    (href : c.Refers kind target) : w'.find? target = w.find? target := by
  rw [find?, find?, hclosed.supplies_eq hagree hc href]

theorem Closed.reached (hclosed : Closed s w) (hc : Reached s w c) (href : c.Refers kind target)
    (hd : w.find? target = some d) : Reached s w d := by
  obtain rfl := name_of_find? hd
  rcases hclosed hc href with hreached | hnone
  · exact ⟨hreached, hd⟩
  · rw [hd] at hnone
    contradiction

/-! ## Resolving members -/

theorem AgreeOn.supplied (hagree : AgreeOn s w w') (hc : Reached s w c) :
    w'.find? c.name = some c := by
  rw [find?, hagree c.name (.inl hc.contains)]
  exact hc.supplied

theorem resolves_iff_of_agreeOn (hclosed : Closed s w) (hagree : AgreeOn s w w')
    (hc : Reached s w c) {answer : DeclaredClass → Option Bool} :
    Resolves w' answer c ↔ Resolves w answer c := by
  constructor
  · intro h
    refine h.transfer (P := Reached s w) ?_ hc
    intro c d parent hc hparent hd
    rw [hclosed.find?_eq hagree hc (.parent hparent)] at hd
    exact ⟨hd, hclosed.reached hc (.parent hparent) hd⟩
  · intro h
    refine h.transfer (P := Reached s w) ?_ hc
    intro c d parent hc hparent hd
    rw [hclosed.find?_eq hagree hc (.parent hparent)]
    exact ⟨hd, hclosed.reached hc (.parent hparent) hd⟩

theorem resolves_eq (hclosed : Closed s w) (hagree : AgreeOn s w w') (hc : Reached s w c)
    (answer : DeclaredClass → Option Bool) : w'.resolves answer c = w.resolves answer c := by
  rw [Bool.eq_iff_iff, resolves_iff (hagree.supplied hc), resolves_iff hc.supplied]
  exact resolves_iff_of_agreeOn hclosed hagree hc

end World

open World

variable {s : ReachableSet} {w w' : World} {c : DeclaredClass}

/-! ## What is said about a site -/

theorem DeclaredMethod.refers_owner {m : DeclaredMethod} {site : Site} (hm : m ∈ c.methods)
    (hsite : site ∈ m.sites) : ∃ kind, c.Refers kind site.owner := by
  rcases List.mem_append.mp hsite with hsite | hsite
  · obtain ⟨call, hcall, rfl⟩ := List.mem_map.mp hsite
    exact ⟨_, .call hm hcall⟩
  · obtain ⟨access, haccess, rfl⟩ := List.mem_map.mp hsite
    exact ⟨_, .field hm haccess⟩

/-- What is said about a site depends on what is supplied under the name of its owner and on how
members resolve there. -/
theorem Site.conflict?_congr {site : Site}
    (hsupplies : w'.supplies[site.owner]? = w.supplies[site.owner]?)
    (hresolves : ∀ d answer, w.find? site.owner = some d →
      w'.resolves answer d = w.resolves answer d) (a : Artifact) (m : DeclaredMethod) :
    Site.conflict? w' a c m site = Site.conflict? w a c m site := by
  have hfind : w'.find? site.owner = w.find? site.owner := by rw [find?, find?, hsupplies]
  have hsource : w'.sourceOrUnknown site.owner = w.sourceOrUnknown site.owner := by
    rw [sourceOrUnknown, sourceOrUnknown, sourceOf?, sourceOf?, hsupplies]
  cases site with
  | call called =>
    simp only [Site.owner] at hfind hsource hresolves
    simp only [Site.conflict?, Checker.checkCall, Checker.conflict, hfind, hsource]
    cases hd : w.find? called.owner with
    | none => rfl
    | some d =>
      have hmissing : w'.methodMissing d called.method = w.methodMissing d called.method := by
        rw [methodMissing, methodMissing, hresolves d _ hd]
      simp only [hmissing]
  | access accessed =>
    simp only [Site.owner] at hfind hsource hresolves
    simp only [Site.conflict?, Checker.checkAccess, Checker.conflict, hfind, hsource]
    cases hd : w.find? accessed.owner with
    | none => rfl
    | some d =>
      have hmissing : w'.fieldMissing d accessed.field = w.fieldMissing d accessed.field := by
        rw [fieldMissing, fieldMissing, hresolves d _ hd]
      simp only [hmissing]

theorem Site.conflict?_eq_of_agreeOn (hclosed : Closed s w) (hagree : AgreeOn s w w')
    (hc : Reached s w c) {m : DeclaredMethod} (hm : m ∈ c.methods) {site : Site}
    (hsite : site ∈ m.sites) (a : Artifact) :
    Site.conflict? w' a c m site = Site.conflict? w a c m site := by
  obtain ⟨kind, href⟩ := DeclaredMethod.refers_owner hm hsite
  refine Site.conflict?_congr (hclosed.supplies_eq hagree hc href) ?_ a m
  intro d answer hd
  exact resolves_eq hclosed hagree (hclosed.reached hc href hd) answer

/-! ## The search for reachable classes -/

namespace ReachableSet

theorem order_subset_explore (w : World) (n : Nat) (queue : List (DeclaredClass × Edge))
    (s : ReachableSet) : s.order ⊆ (explore w n queue s).order := by
  induction n generalizing queue s with
  | zero => exact List.Subset.refl _
  | succ n ih =>
    unfold explore
    split
    · exact List.Subset.refl _
    · refine List.Subset.trans ?_ (ih ..)
      simp

theorem supplied_of_mem_successors {t : ReachableSet} {item : DeclaredClass × Edge}
    (h : item ∈ t.successors w c) : w.find? item.1.name = some item.1 := by
  obtain ⟨⟨target, kind⟩, -, hitem⟩ := List.mem_filterMap.mp h
  dsimp only at hitem
  split at hitem
  · contradiction
  · obtain ⟨d, hd, rfl⟩ := Option.map_eq_some_iff.mp hitem
    rwa [name_of_find? hd]

theorem successors_eq_of_agreeOn (hclosed : Closed s w) (hagree : AgreeOn s w w')
    (hc : Reached s w c) (t : ReachableSet) : t.successors w' c = t.successors w c := by
  refine List.filterMap_congr ?_
  rintro ⟨target, kind⟩ href
  dsimp only
  rw [hclosed.find?_eq hagree hc (DeclaredClass.mem_references.mp href)]

/-- As long as only names of the closed set are reached, every step is the same. -/
theorem explore_eq_of_agreeOn (hclosed : Closed s w) (hagree : AgreeOn s w w') (n : Nat)
    (queue : List (DeclaredClass × Edge)) (t : ReachableSet)
    (hqueue : ∀ item ∈ queue, w.find? item.1.name = some item.1)
    (hreached : ∀ name ∈ (explore w n queue t).order, s.contains name = true) :
    explore w' n queue t = explore w n queue t := by
  induction n generalizing queue t with
  | zero => rfl
  | succ n ih =>
    rw [explore] at hreached ⊢
    rw [explore]
    cases hdrop : queue.dropWhile fun item => t.contains item.1.name with
    | nil => rfl
    | cons item rest =>
      obtain ⟨c, edge⟩ := item
      simp only [hdrop] at hreached ⊢
      have hsuffix : ∀ item ∈ (c, edge) :: rest, w.find? item.1.name = some item.1 := by
        intro item hitem
        rw [← hdrop] at hitem
        exact hqueue item ((List.dropWhile_suffix _).mem hitem)
      have hc : Reached s w c := by
        refine ⟨hreached c.name ?_, hsuffix (c, edge) (List.mem_cons_self ..)⟩
        exact order_subset_explore _ _ _ _ (by simp)
      rw [successors_eq_of_agreeOn hclosed hagree hc]
      refine ih _ _ ?_ hreached
      intro item hitem
      rcases List.mem_append.mp hitem with hold | hnew
      · exact hsuffix item (List.mem_cons_of_mem _ hold)
      · exact supplied_of_mem_successors hnew

end ReachableSet

namespace Reachability

open ReachableSet

variable {seeds : List DeclaredClass}

theorem declaration?_eq_find? (hseeds : ∀ c ∈ seeds, w.find? c.name = some c) (name : ClassName) :
    declaration? seeds w name = w.find? name := by
  rw [declaration?]
  cases hseed : seeds.find? fun c => c.name = name with
  | none => rfl
  | some c =>
    have hname : c.name = name := by simpa using List.find?_some hseed
    rw [Option.some_or, ← hname, hseeds c (List.mem_of_find?_eq_some hseed)]

theorem closed_ofSeeds (hseeds : ∀ c ∈ seeds, w.find? c.name = some c) :
    Closed (ofSeeds seeds w) w := by
  intro c kind target hc href
  obtain ⟨⟨_, hrun⟩, hfinished, -⟩ := exists_run_ofSeeds seeds w
  cases hfind : w.find? target with
  | none => exact .inr rfl
  | some d =>
    refine .inl ((hrun.contains_iff target).mpr ?_)
    refine mem_order_of_refersTo hrun hfinished ((hrun.contains_iff c.name).mp hc.contains)
      ⟨c, ?_, href⟩ (.inr (by simp [hfind]))
    rw [declaration?_eq_find? hseeds, hc.supplied]

/-- The search makes the same way through both worlds, whatever their sizes are. -/
theorem ofSeeds_eq_of_agreeOn (hseeds : ∀ c ∈ seeds, w.find? c.name = some c)
    (hagree : AgreeOn (ofSeeds seeds w) w w') : ofSeeds seeds w' = ofSeeds seeds w := by
  obtain ⟨⟨_, hrun⟩, -, hstops⟩ := exists_run_ofSeeds seeds w
  obtain ⟨-, -, hstops'⟩ := exists_run_ofSeeds seeds w'
  let n := seeds.length + max w.size w'.size
  have hn : explore w n (seeds.map (·, .seed)) empty = ofSeeds seeds w := hstops n (by omega)
  rw [← hstops' n (by omega), ← hn]
  refine explore_eq_of_agreeOn (closed_ofSeeds hseeds) hagree n _ _ ?_ ?_
  · simpa using hseeds
  · intro name hname
    rw [hn] at hname
    exact (hrun.contains_iff name).mpr hname

end Reachability

/-- A check comes to the same classes, over the same paths, and to the same conflicts when classes
that it does not reach are taken out of the artifacts, as long as the classes that it starts from and
those that it checks are the ones that their names stand for. -/
theorem check_pruned (jobs jobs' : Int) (project : Artifact) (toCheck all all' : List Artifact)
    (hproject : ∀ c ∈ project.classes, (World.ofArtifacts all).find? c.name = some c)
    (hchecked : ∀ a ∈ toCheck, ∀ c ∈ a.classes,
      (check jobs project toCheck all).reachable.contains c.name = true →
        (World.ofArtifacts all).find? c.name = some c)
    (hpruned : List.Forall₂
      (Artifact.Pruned (check jobs project toCheck all).reachable.contains) all all') :
    let r := check jobs project toCheck all
    let r' := check jobs' project toCheck all'
    r'.reachable.order = r.reachable.order ∧
      (∀ name, r'.reachable.pathTo? name = r.reachable.pathTo? name) ∧
      r'.conflicts = r.conflicts := by
  intro r r'
  have hagree : AgreeOn r.reachable r.world r'.world := fun _ => supplies_pruned hpruned
  have hreachable : r'.reachable = r.reachable :=
    Reachability.ofSeeds_eq_of_agreeOn hproject hagree
  refine ⟨by rw [hreachable], fun name => by rw [hreachable], ?_⟩
  rw [check_conflicts_eq, check_conflicts_eq]
  refine List.flatMap_congr fun a ha => ?_
  rw [show (check jobs' project toCheck all').reachable = r.reachable from hreachable]
  refine List.flatMap_congr fun c hc => ?_
  obtain ⟨hc, hcontains⟩ := List.mem_filter.mp hc
  refine List.flatMap_congr fun m hm => List.filterMap_congr fun site hsite => ?_
  have hreached : Reached r.reachable r.world c := ⟨hcontains, hchecked a ha c hc hcontains⟩
  exact Site.conflict?_eq_of_agreeOn (Reachability.closed_ofSeeds hproject) hagree hreached hm hsite a

namespace Pruning

/-- A method that runs another one of the same signature, on the first line. -/
def sampleMain (owner : ClassName) (called : Text) : DeclaredMethod :=
  ⟨⟨"main", [], .void, true⟩, 1, [⟨owner, ⟨called, [], .void, true⟩, 1, []⟩], []⟩

/-- A project that calls what no class above the library's `b.Base` declares. -/
def sampleProject : Artifact :=
  .ofClasses "project"
    [ClassBuilder.build { name := ⟨"a.Main"⟩, methods := [sampleMain ⟨"b.Base"⟩ "run"] }]

/-- A class that the project does not reach and that makes a broken call of its own. -/
def sampleUnused : DeclaredClass :=
  ClassBuilder.build { name := ⟨"b.Unused"⟩, methods := [sampleMain ⟨"b.Root"⟩ "stop"] }

/-- A library, with or without the class that is not reached. -/
def sampleLibrary (whole : Bool) : Artifact :=
  .ofClasses "library" (
    ((ClassBuilder.start ⟨"b.Base"⟩).addParents [⟨"b.Root"⟩]).build ::
    (ClassBuilder.start ⟨"b.Root"⟩).build ::
    if whole then [sampleUnused] else [])

theorem sample_check_pruned :
    let all := [sampleProject, sampleLibrary true]
    let all' := [sampleProject, sampleLibrary false]
    let r := check 1 sampleProject all all
    let r' := check 2 sampleProject all all'
    (r.reachable.order = [⟨"a.Main"⟩, ⟨"b.Base"⟩, ⟨"b.Root"⟩] ∧ r.conflicts.length = 1) ∧
      r'.reachable.order = r.reachable.order ∧
      (∀ name, r'.reachable.pathTo? name = r.reachable.pathTo? name) ∧
      r'.conflicts = r.conflicts := by
  refine ⟨by decide +kernel, ?_⟩
  refine check_pruned 1 2 _ _ _ _ (by decide +kernel) (by decide +kernel) ?_
  refine .cons ⟨rfl, by decide +kernel, by decide +kernel⟩ (.cons ⟨rfl, ?_, ?_⟩ .nil)
  · decide +kernel
  · decide +kernel

end Pruning

end JvmLinkage
