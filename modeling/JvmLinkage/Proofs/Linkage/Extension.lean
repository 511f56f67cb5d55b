import JvmLinkage.Proofs.Checking
import JvmLinkage.Proofs.Linkage.Resolution
import JvmLinkage.Proofs.Linkage.World
import JvmLinkage.Proofs.Reachability.Closure

/-!
# More artifacts at the end break nothing

A world that supplies whatever another one supplies, and perhaps more, lets every chain of references
and every successful search go the way it went. Whatever is broken in the larger world, with an owner
that the smaller one supplies, is broken there in the same way.
-/

namespace JvmLinkage

open World

variable {w w' : World} {name : ClassName} {d : DeclaredClass}

/-! ## Chains of references -/

namespace Reachability

variable {seeds : List DeclaredClass}

theorem Known.of_extends (h : Extends w w') (hknown : Known seeds w name) : Known seeds w' name := by
  refine hknown.imp_right ?_
  intro hsupplied
  obtain ⟨c, hc⟩ := Option.isSome_iff_exists.mp hsupplied
  simp [h.find? hc]

theorem RefersTo.of_extends (h : Extends w w') {kind : Reference} {source target : ClassName}
    (href : RefersTo seeds w kind source target) : RefersTo seeds w' kind source target := by
  obtain ⟨c, hdecl, hrefers⟩ := href
  refine ⟨c, ?_, hrefers⟩
  rcases Option.or_eq_some_iff.mp hdecl with hseed | ⟨hnone, hfind⟩
  · rw [declaration?, hseed, Option.some_or]
  · rw [declaration?, hnone, Option.none_or, h.find? hfind]

theorem IsChain.of_extends (h : Extends w w') {chain : List ClassName}
    (hchain : IsChain seeds w chain name) : IsChain seeds w' chain name where
  starts := hchain.starts
  linked := by
    refine hchain.linked.imp ?_
    rintro a b ⟨⟨kind, href⟩, hknown⟩
    exact ⟨⟨kind, href.of_extends h⟩, hknown.of_extends h⟩
  ends := hchain.ends

theorem contains_of_extends (h : Extends w w')
    (hname : (ReachableSet.ofSeeds seeds w).contains name = true) :
    (ReachableSet.ofSeeds seeds w').contains name = true := by
  obtain ⟨⟨_, hrun⟩, -⟩ := exists_run_ofSeeds seeds w
  obtain ⟨⟨_, hrun'⟩, hfinished', -⟩ := exists_run_ofSeeds seeds w'
  obtain ⟨path, htrace, hsub⟩ := hrun.exists_trace ((hrun.contains_iff name).mp hname)
  have hchain := (htrace.isExplanation hrun hsub).isChain
  exact (hrun'.contains_iff name).mpr (mem_order_of_isChain hrun' hfinished' (hchain.of_extends h))

end Reachability

/-! ## Sites with a supplied owner -/

/-- A search that succeeds goes on to succeed: its way is still there, and no other parent can stop
it. -/
theorem World.resolves_of_extends (h : Extends w w') (hd : w.find? name = some d)
    {answer : DeclaredClass → Option Bool} (hresolves : w.resolves answer d = true) :
    w'.resolves answer d = true := by
  obtain rfl := name_of_find? hd
  rw [resolves_iff hd] at hresolves
  rw [resolves_iff (h.find? hd)]
  refine hresolves.transfer (P := fun _ => True) ?_ trivial
  intro c d parent _ _ hparent
  exact ⟨h.find? hparent, trivial⟩

namespace Site

variable {site : Site} {category : Category}

theorem Broken.of_extends (h : Extends w w') (hd : w.find? site.owner = some d)
    (hbroken : Broken w' site category) : Broken w site category := by
  have hd' := h.find? hd
  cases hbroken with
  | callOwner hnone => exact absurd (hd'.symm.trans hnone) (by simp)
  | accessOwner hnone => exact absurd (hd'.symm.trans hnone) (by simp)
  | method hfind hmissing hcaught =>
    obtain rfl := Option.some.inj (hd'.symm.trans hfind)
    refine .method hd ?_ hcaught
    rw [methodMissing, Bool.not_eq_true', Bool.eq_false_iff] at hmissing ⊢
    exact fun hresolves => hmissing (resolves_of_extends h hd hresolves)
  | field hfind hmissing =>
    obtain rfl := Option.some.inj (hd'.symm.trans hfind)
    refine .field hd ?_
    rw [fieldMissing, Bool.not_eq_true', Bool.eq_false_iff] at hmissing ⊢
    exact fun hresolves => hmissing (resolves_of_extends h hd hresolves)

theorem Tells.of_extends (h : Extends w w') (hd : w.find? site.owner = some d) {a : Artifact}
    {c : DeclaredClass} {m : DeclaredMethod} {k : Conflict} (htells : Tells w' a c m site k) :
    Tells w a c m site k where
  broken := htells.broken.of_extends h hd
  dependency := htells.dependency
  usedBy := htells.usedBy
  existsIn := by
    obtain ⟨s, hs, -⟩ := Option.map_eq_some_iff.mp hd
    rw [htells.existsIn, sourceOf?, sourceOf?, hs, h _ s hs]
  reason := htells.reason

end Site

/-! ## Checks -/

/-- A check has a conflict with both ends of the reference at a site. -/
def CheckResult.Reports (r : CheckResult) (a : Artifact) (c : DeclaredClass) (m : DeclaredMethod)
    (site : Site) : Prop :=
  ∃ k ∈ r.conflicts, k.dependency = site.dependency c m ∧ k.usedBy = a.name

/-- What a larger world brings to light about reached classes and supplied owners was there before. -/
theorem mem_conflicts_of_extends {jobs jobs' : Int} {project : Artifact}
    {toCheck all all' : List Artifact} (h : Extends (ofArtifacts all) (ofArtifacts all'))
    {k : Conflict} (hk : k ∈ (check jobs' project toCheck all').conflicts)
    (hreached :
      (check jobs project toCheck all).reachable.contains k.dependency.fromClass = true)
    (howner : ((ofArtifacts all).find? k.dependency.targetClass).isSome) :
    k ∈ (check jobs project toCheck all).conflicts := by
  rw [check_conflicts_eq] at hk ⊢
  simp only [List.mem_flatMap, List.mem_filter, List.mem_filterMap] at hk ⊢
  obtain ⟨a, ha, c, ⟨hc, -⟩, m, hm, site, hsite, hconflict⟩ := hk
  have htells := Site.conflict?_eq_some_iff.mp hconflict
  have hends : k.dependency.fromClass = c.name ∧ k.dependency.targetClass = site.owner := by
    rw [htells.dependency]
    cases site <;> exact ⟨rfl, rfl⟩
  rw [hends.1] at hreached
  rw [hends.2] at howner
  obtain ⟨d, hd⟩ := Option.isSome_iff_exists.mp howner
  exact ⟨a, ha, c, ⟨hc, hreached⟩, m, hm, site, hsite,
    Site.conflict?_eq_some_iff.mpr (htells.of_extends h hd)⟩

/-- With more artifacts at the end of the list, every class that was reached is reached, every class
that was supplied is supplied by the same artifact, and no site of a reached class whose owner was
supplied gets a conflict that it did not have. -/
theorem check_extended (jobs jobs' : Int) (project : Artifact) (toCheck all extra : List Artifact) :
    let r := check jobs project toCheck all
    let r' := check jobs' project toCheck (all ++ extra)
    (∀ name, r.reachable.contains name = true → r'.reachable.contains name = true) ∧
    (∀ name, (r.world.find? name).isSome →
      r'.world.find? name = r.world.find? name ∧
        r'.world.sourceOf? name = r.world.sourceOf? name) ∧
    ∀ a ∈ toCheck, ∀ c ∈ a.classes, r.reachable.contains c.name = true →
      ∀ m ∈ c.methods, ∀ site ∈ m.sites, (r.world.find? site.owner).isSome →
        (Site.conflict? r.world a c m site = none → Site.conflict? r'.world a c m site = none) ∧
        (¬ r.Reports a c m site → ¬ r'.Reports a c m site) := by
  intro r r'
  have hextends : Extends r.world r'.world := extends_append all extra
  refine ⟨fun name hname => Reachability.contains_of_extends hextends hname, ?_, ?_⟩
  · intro name hsupplied
    obtain ⟨c, hc⟩ := Option.isSome_iff_exists.mp hsupplied
    obtain ⟨s, hs, -⟩ := Option.map_eq_some_iff.mp hc
    simp [find?, sourceOf?, hs, hextends name s hs]
  · intro a _ c _ hreached m _ site _ howner
    obtain ⟨d, hd⟩ := Option.isSome_iff_exists.mp howner
    refine ⟨?_, mt ?_⟩
    · intro hnone
      rw [Site.conflict?_eq_none_iff] at hnone ⊢
      exact fun category hbroken => hnone category (hbroken.of_extends hextends hd)
    · rintro ⟨k, hk, hdependency, husedBy⟩
      refine ⟨k, mem_conflicts_of_extends hextends hk ?_ ?_, hdependency, husedBy⟩
      · rw [hdependency]
        cases site <;> exact hreached
      · rw [hdependency]
        cases site <;> exact howner

namespace Extension

/-- The method that the project calls. -/
def sampleMethod (static : Bool) : DeclaredMethod := ⟨⟨"run", [], .void, static⟩, 1, [], []⟩

def sampleCall : Call := ⟨⟨"b.Base"⟩, ⟨"run", [], .void, true⟩, 7, []⟩

def sampleMain : DeclaredMethod := ⟨⟨"main", [], .void, true⟩, 7, [sampleCall], []⟩

def sampleClass : DeclaredClass :=
  ClassBuilder.build { name := ⟨"a.Main"⟩, methods := [sampleMain] }

def sampleProject : Artifact := .ofClasses "project" [sampleClass]

/-- A library whose class has two parents. The method is found in the second one. -/
def sampleLibrary : Artifact :=
  .ofClasses "library" [
    ((ClassBuilder.start ⟨"b.Base"⟩).addParents [⟨"b.Extra"⟩, ⟨"b.Root"⟩]).build,
    ClassBuilder.build { name := ⟨"b.Root"⟩, methods := [sampleMethod true] }]

/-- A supplier of the parent that comes first, which has the method with the other static flag. -/
def sampleExtra : Artifact :=
  .ofClasses "extra" [ClassBuilder.build { name := ⟨"b.Extra"⟩, methods := [sampleMethod false] }]

/-- The call links in the library's own world, and goes on to do so when the search comes to a parent
that has the method in a wrong form. -/
theorem sample_check_extended :
    let r := check 1 sampleProject [sampleProject] [sampleProject, sampleLibrary]
    let r' := check 1 sampleProject [sampleProject] [sampleProject, sampleLibrary, sampleExtra]
    (r.reachable.contains ⟨"b.Extra"⟩ = false ∧ r'.reachable.contains ⟨"b.Extra"⟩ = true) ∧
      Site.conflict? r.world sampleProject sampleClass sampleMain (.call sampleCall) = none ∧
      Site.conflict? r'.world sampleProject sampleClass sampleMain (.call sampleCall) = none := by
  have hnone : Site.conflict? (check 1 sampleProject [sampleProject]
      [sampleProject, sampleLibrary]).world sampleProject sampleClass sampleMain
        (.call sampleCall) = none := by decide +kernel
  obtain ⟨-, -, hsites⟩ := check_extended 1 1 sampleProject [sampleProject]
    [sampleProject, sampleLibrary] [sampleExtra]
  have hsite := hsites sampleProject (List.mem_singleton.mpr rfl) sampleClass (by decide +kernel)
    (by decide +kernel) sampleMain (by decide +kernel) (.call sampleCall)
    (List.mem_singleton.mpr rfl) (by decide +kernel)
  exact ⟨by decide +kernel, hnone, hsite.1 hnone⟩

end Extension

end JvmLinkage
