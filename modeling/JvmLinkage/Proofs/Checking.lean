import JvmLinkage.Linkage.Checker

/-!
# What a check reports

A site is a call or an access in a method body. The rules say which sites are broken and in which
way, without reference to how a check goes about it. A check goes through the sites of the reachable
classes in order and reports the broken ones, however many artifacts it works on at a time.
-/

namespace JvmLinkage

/-! ## Sites -/

/-- A place in a method body that refers to a member of a class. -/
inductive Site where
  | call (called : Call)
  | access (accessed : Access)

/-- The sites of a method: its calls, then its accesses. -/
def DeclaredMethod.sites (m : DeclaredMethod) : List Site :=
  m.calls.map .call ++ m.accesses.map .access

namespace Site

/-- The class that a site refers to. -/
def owner : Site → ClassName
  | .call called => called.owner
  | .access accessed => accessed.owner

/-- The two ends of the reference at a site of a method of a class. -/
def dependency (c : DeclaredClass) (m : DeclaredMethod) : Site → Dependency
  | .call called => ⟨c.name, m.method, called.line, called.owner, some called.method, none⟩
  | .access accessed =>
    ⟨c.name, m.method, accessed.line, accessed.owner, none, some accessed.field⟩

/-- A site is broken in a way. A handler excuses a call, and never an access. -/
inductive Broken (w : World) : Site → Category → Prop where
  | callOwner {call : Call} :
      w.find? call.owner = none →
      ⟨"java.lang.NoClassDefFoundError"⟩ ∉ call.caught →
      ⟨"java.lang.ClassNotFoundException"⟩ ∉ call.caught →
      Broken w (.call call) .classNotFound
  | accessOwner {access : Access} :
      w.find? access.owner = none → Broken w (.access access) .classNotFound
  | method {call : Call} {owner : DeclaredClass} :
      w.find? call.owner = some owner → w.methodMissing owner call.method = true →
      ⟨"java.lang.NoSuchMethodError"⟩ ∉ call.caught →
      Broken w (.call call) .methodNotFound
  | field {access : Access} {owner : DeclaredClass} :
      w.find? access.owner = some owner → w.fieldMissing owner access.field = true →
      Broken w (.access access) .fieldNotFound

/-- The words for a broken site. -/
def reason (c : DeclaredClass) (m : DeclaredMethod) : Site → Category → Text
  | site, .classNotFound => "Class not found: " ++ site.owner.dotted
  | .call called, _ => "Method not found: " ++ (dependency c m (.call called)).target
  | .access accessed, _ => "Field not found: " ++ (dependency c m (.access accessed)).target
      ++ " (" ++ accessed.field.type.shown ++ ")"

/-- A conflict tells of a broken site in an artifact: the way in which it is broken, both ends of
the reference, the artifact, and the artifact that supplies the owner or the name for unknown
ones. -/
structure Tells (w : World) (a : Artifact) (c : DeclaredClass) (m : DeclaredMethod) (site : Site)
    (k : Conflict) : Prop where
  broken : Broken w site k.category
  dependency : k.dependency = site.dependency c m
  usedBy : k.usedBy = a.name
  existsIn : k.existsIn = (w.sourceOf? site.owner).getD "<unknown>"
  reason : k.reason = site.reason c m k.category

/-- What a check says about a site. -/
def conflict? (w : World) (a : Artifact) (c : DeclaredClass) (m : DeclaredMethod) :
    Site → Option Conflict
  | .call called => Checker.checkCall w a.name c m called
  | .access accessed => Checker.checkAccess w a.name c m accessed

/-! ## The rules decide what is said about a site -/

theorem catches_classGuards_eq_false {call : Call} :
    call.catches Checker.classGuards = false ↔
      ⟨"java.lang.NoClassDefFoundError"⟩ ∉ call.caught ∧
        ⟨"java.lang.ClassNotFoundException"⟩ ∉ call.caught := by
  simp [Call.catches, catchesAny, Checker.classGuards]

theorem catches_methodGuards_eq_false {call : Call} :
    call.catches Checker.methodGuards = false ↔
      ⟨"java.lang.NoSuchMethodError"⟩ ∉ call.caught := by
  simp [Call.catches, catchesAny, Checker.methodGuards]

theorem tells_of_conflict?_eq_some {w : World} {a : Artifact} {c : DeclaredClass}
    {m : DeclaredMethod} {site : Site} {k : Conflict} (h : conflict? w a c m site = some k) :
    Tells w a c m site k := by
  cases site with
  | call called =>
    simp only [conflict?, Checker.checkCall] at h
    split at h
    · rename_i hfind
      split at h
      · cases h
      · rename_i hcatch
        cases h
        obtain ⟨hno, hnot⟩ := catches_classGuards_eq_false.mp (by simpa using hcatch)
        exact ⟨.callOwner hfind hno hnot, rfl, rfl, rfl, rfl⟩
    · rename_i owner hfind
      split at h
      · rename_i hbroken
        cases h
        rw [Bool.and_eq_true, Bool.not_eq_true'] at hbroken
        exact ⟨.method hfind hbroken.1 (catches_methodGuards_eq_false.mp hbroken.2), rfl, rfl, rfl,
          rfl⟩
      · cases h
  | access accessed =>
    simp only [conflict?, Checker.checkAccess] at h
    split at h
    · rename_i hfind
      cases h
      exact ⟨.accessOwner hfind, rfl, rfl, rfl, rfl⟩
    · rename_i owner hfind
      split at h
      · rename_i hmissing
        cases h
        exact ⟨.field hfind hmissing, rfl, rfl, rfl, rfl⟩
      · cases h

theorem exists_conflict?_of_broken {w : World} {site : Site} {category : Category}
    (h : Broken w site category) (a : Artifact) (c : DeclaredClass) (m : DeclaredMethod) :
    ∃ k, conflict? w a c m site = some k ∧ k.category = category := by
  cases h with
  | callOwner hfind hno hnot =>
    have hcatch := catches_classGuards_eq_false.mpr ⟨hno, hnot⟩
    simp only [conflict?, Checker.checkCall, hfind, hcatch]
    exact ⟨_, rfl, rfl⟩
  | accessOwner hfind =>
    simp only [conflict?, Checker.checkAccess, hfind]
    exact ⟨_, rfl, rfl⟩
  | method hfind hmissing hcaught =>
    have hcatch := catches_methodGuards_eq_false.mpr hcaught
    simp only [conflict?, Checker.checkCall, hfind, hmissing, hcatch]
    exact ⟨_, rfl, rfl⟩
  | field hfind hmissing =>
    simp only [conflict?, Checker.checkAccess, hfind, hmissing]
    exact ⟨_, rfl, rfl⟩

theorem Tells.eq {w : World} {a : Artifact} {c : DeclaredClass} {m : DeclaredMethod} {site : Site}
    {k l : Conflict} (hk : Tells w a c m site k) (hl : Tells w a c m site l)
    (hcategory : k.category = l.category) : k = l := by
  obtain ⟨-, hkd, hku, hke, hkr⟩ := hk
  obtain ⟨-, hld, hlu, hle, hlr⟩ := hl
  cases k
  cases l
  simp_all

/-- What is said about a site is what the rules give for it. -/
theorem conflict?_eq_some_iff {w : World} {a : Artifact} {c : DeclaredClass} {m : DeclaredMethod}
    {site : Site} {k : Conflict} : conflict? w a c m site = some k ↔ Tells w a c m site k := by
  refine ⟨tells_of_conflict?_eq_some, ?_⟩
  intro h
  obtain ⟨l, hl, hcategory⟩ := exists_conflict?_of_broken h.broken a c m
  rw [hl, (tells_of_conflict?_eq_some hl).eq h hcategory]

theorem conflict?_eq_none_iff {w : World} {a : Artifact} {c : DeclaredClass} {m : DeclaredMethod}
    {site : Site} : conflict? w a c m site = none ↔ ∀ category, ¬ Broken w site category := by
  constructor
  · intro hnone category hbroken
    obtain ⟨k, hk, -⟩ := exists_conflict?_of_broken hbroken a c m
    rw [hnone] at hk
    cases hk
  · intro hwhole
    rw [Option.eq_none_iff_forall_ne_some]
    intro k hk
    exact hwhole k.category (tells_of_conflict?_eq_some hk).broken

end Site

/-! ## Checks go through the sites in order -/

namespace Checker

/-- Working in rounds gives the results of working on one item after the other. -/
theorem inRounds_eq_map {α β : Type} (jobs : Int) (work : α → β) (items : List α) :
    inRounds jobs work items = items.map work := by
  fun_induction inRounds jobs work items with
  | case1 => rfl
  | case2 item rest more ih => rw [ih, ← List.map_append, List.cons_append, List.take_append_drop]

theorem checkClass_eq (w : World) (a : Artifact) :
    checkClass w a.name =
      fun c => c.methods.flatMap fun m => m.sites.filterMap (Site.conflict? w a c m) := by
  funext c
  simp only [checkClass, DeclaredMethod.sites, List.filterMap_append, List.filterMap_map]
  rfl

end Checker

/-- The conflicts are those of the artifacts that are checked, one artifact after the other. -/
theorem check_conflicts_eq_flatMap (jobs : Int) (project : Artifact) (toCheck all : List Artifact) :
    let r := check jobs project toCheck all
    r.conflicts = toCheck.flatMap fun a => (Checker.checkArtifact r.world r.reachable a).1 := by
  simp only [check, Checker.inRounds_eq_map, List.flatMap_map]

theorem check_conflicts_eq (jobs : Int) (project : Artifact) (toCheck all : List Artifact) :
    let r := check jobs project toCheck all
    r.conflicts = toCheck.flatMap fun a =>
      (a.classes.filter fun c => r.reachable.contains c.name).flatMap fun c =>
        c.methods.flatMap fun m => m.sites.filterMap (Site.conflict? r.world a c m) := by
  intro r
  rw [check_conflicts_eq_flatMap]
  simp only [Checker.checkArtifact, Checker.checkedClasses, Checker.checkClass_eq, r]

theorem check_checked_eq (jobs : Int) (project : Artifact) (toCheck all : List Artifact) :
    let r := check jobs project toCheck all
    r.checked = (toCheck.flatMap (Checker.checkedClasses r.reachable)).length := by
  simp only [check, Checker.inRounds_eq_map, List.flatMap_map, Checker.checkArtifact]

/-- Every conflict tells of a site of a reachable class in an artifact that is checked. -/
theorem exists_tells_of_mem_conflicts {jobs : Int} {project : Artifact}
    {toCheck all : List Artifact} {k : Conflict}
    (h : k ∈ (check jobs project toCheck all).conflicts) :
    let r := check jobs project toCheck all
    ∃ a ∈ toCheck, ∃ c ∈ a.classes, r.reachable.contains c.name = true ∧
      ∃ m ∈ c.methods, ∃ site ∈ m.sites, Site.Tells r.world a c m site k := by
  rw [check_conflicts_eq] at h
  simp only [List.mem_flatMap, List.mem_filter, List.mem_filterMap] at h
  obtain ⟨a, ha, c, ⟨hc, hreached⟩, m, hm, site, hsite, hk⟩ := h
  exact ⟨a, ha, c, hc, hreached, m, hm, site, hsite, Site.conflict?_eq_some_iff.mp hk⟩

/-- Conflicts are reported from reachable classes only. -/
theorem contains_fromClass_of_mem_conflicts {jobs : Int} {project : Artifact}
    {toCheck all : List Artifact} {k : Conflict}
    (h : k ∈ (check jobs project toCheck all).conflicts) :
    (check jobs project toCheck all).reachable.contains k.dependency.fromClass = true := by
  obtain ⟨a, -, c, -, hreached, m, -, site, -, htells⟩ := exists_tells_of_mem_conflicts h
  cases site <;> simpa [htells.dependency, Site.dependency] using hreached

theorem Method.cmp_eq_lt {m n : Method} (h : m.cmp n = .lt) :
    compare m.name n.name = .lt ∨ m.name = n.name ∧ compare m.raw n.raw = .lt := by
  rcases Ordering.then_eq_lt.mp h with hname | ⟨hname, hraw⟩
  · exact .inl hname
  · exact .inr ⟨Std.LawfulEqOrd.eq_of_compare hname, hraw⟩

/-- A check reports exactly the broken sites of the reachable classes: artifact by artifact as
given, class by class in ascending order of names, method by method in ascending order of names and
encoded forms, in each method the calls before the accesses, and each site at most once. -/
theorem check_reports_broken_sites (jobs : Int) (project : Artifact)
    (toCheck all : List Artifact) :
    let r := check jobs project toCheck all
    r.world = World.ofArtifacts all ∧
    r.reachable = ReachableSet.ofSeeds project.classes r.world ∧
    (r.conflicts = toCheck.flatMap fun a =>
      (a.classes.filter fun c => r.reachable.contains c.name).flatMap fun c =>
        c.methods.flatMap fun m =>
          (m.calls.map Site.call ++ m.accesses.map Site.access).filterMap
            (Site.conflict? r.world a c m)) ∧
    (∀ a ∈ toCheck, a.classes.Pairwise fun c d => compare c.name.dotted d.name.dotted = .lt) ∧
    (∀ a ∈ toCheck, ∀ c ∈ a.classes, c.methods.Pairwise fun m n =>
      compare m.method.name n.method.name = .lt ∨
        m.method.name = n.method.name ∧ compare m.method.raw n.method.raw = .lt) ∧
    ∀ a c m site,
      (∀ k, Site.conflict? r.world a c m site = some k ↔ Site.Tells r.world a c m site k) ∧
      (Site.conflict? r.world a c m site = none ↔
        ∀ category, ¬ Site.Broken r.world site category) := by
  refine ⟨rfl, rfl, check_conflicts_eq .., ?_, ?_, ?_⟩
  · exact fun a _ => a.classes_ordered
  · intro a _ c _
    exact c.methods_ordered.imp Method.cmp_eq_lt
  · exact fun a c m site => ⟨fun k => Site.conflict?_eq_some_iff, Site.conflict?_eq_none_iff⟩

end JvmLinkage
