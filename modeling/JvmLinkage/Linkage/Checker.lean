import JvmLinkage.Linkage.Conflict
import JvmLinkage.Linkage.Reachability
import JvmLinkage.Linkage.Resolution

/-!
# Checking

Every reference from a reachable class of the checked artifacts is resolved in the world of all
artifacts, and those that fail are reported in the order of artifacts, classes, methods and sites.
-/

namespace JvmLinkage

namespace Checker

/-- Code that catches one of these copes with a missing class. -/
def classGuards : List ClassName :=
  [⟨"java.lang.NoClassDefFoundError"⟩, ⟨"java.lang.ClassNotFoundException"⟩]

/-- Code that catches this copes with a missing method. -/
def methodGuards : List ClassName := [⟨"java.lang.NoSuchMethodError"⟩]

/-- A conflict about a reference made in an artifact. -/
def conflict (w : World) (artifact : Text) (category : Category) (d : Dependency) (reason : Text) :
    Conflict :=
  ⟨category, d, artifact, w.sourceOrUnknown d.targetClass, reason⟩

/-- The conflict of a call, if it has one. -/
def checkCall (w : World) (artifact : Text) (c : DeclaredClass) (m : DeclaredMethod) (call : Call) :
    Option Conflict :=
  let d : Dependency := ⟨c.name, m.method, call.line, call.owner, some call.method, none⟩
  match w.find? call.owner with
  | none =>
    if call.catches classGuards then none
    else some (conflict w artifact .classNotFound d ("Class not found: " ++ call.owner.dotted))
  | some owner =>
    if w.methodMissing owner call.method && !call.catches methodGuards then
      some (conflict w artifact .methodNotFound d ("Method not found: " ++ d.target))
    else none

/-- The conflict of an access, if it has one. No handler excuses an access. -/
def checkAccess (w : World) (artifact : Text) (c : DeclaredClass) (m : DeclaredMethod)
    (access : Access) : Option Conflict :=
  let d : Dependency := ⟨c.name, m.method, access.line, access.owner, none, some access.field⟩
  match w.find? access.owner with
  | none =>
    some (conflict w artifact .classNotFound d ("Class not found: " ++ access.owner.dotted))
  | some owner =>
    if w.fieldMissing owner access.field then
      some (conflict w artifact .fieldNotFound d
        ("Field not found: " ++ d.target ++ " (" ++ access.field.type.shown ++ ")"))
    else none

/-- The conflicts of a class: of each method first its calls, then its accesses. -/
def checkClass (w : World) (artifact : Text) (c : DeclaredClass) : List Conflict :=
  c.methods.flatMap fun m =>
    m.calls.filterMap (checkCall w artifact c m) ++ m.accesses.filterMap (checkAccess w artifact c m)

/-- The reachable classes of an artifact. -/
def checkedClasses (reachable : ReachableSet) (a : Artifact) : List DeclaredClass :=
  a.classes.filter fun c => reachable.contains c.name

/-- The conflicts of an artifact, and the classes of it that were checked. -/
def checkArtifact (w : World) (reachable : ReachableSet) (a : Artifact) :
    List Conflict × List DeclaredClass :=
  let classes := checkedClasses reachable a
  (classes.flatMap (checkClass w a.name), classes)

/-- Does the work on a list in rounds of at most `jobs` items, one for a number below one. -/
def inRounds {α β : Type} (jobs : Int) (work : α → β) (items : List α) : List β :=
  match items with
  | [] => []
  | item :: rest =>
    let more := jobs.toNat - 1
    (item :: rest.take more).map work ++ inRounds jobs work (rest.drop more)
termination_by items.length
decreasing_by
  simp only [List.length_drop, List.length_cons]
  omega

end Checker

/-- What a check found. -/
structure CheckResult where
  conflicts : List Conflict
  world : World
  reachable : ReachableSet
  checked : Nat

/-- Checks artifacts against the world of all artifacts, as far as the project reaches, with a
number of artifacts at a time. -/
def check (jobs : Int) (project : Artifact) (toCheck all : List Artifact) : CheckResult :=
  let world := World.ofArtifacts all
  let reachable := ReachableSet.ofSeeds project.classes world
  let results := Checker.inRounds jobs (Checker.checkArtifact world reachable) toCheck
  { conflicts := results.flatMap (·.1), world, reachable, checked := (results.flatMap (·.2)).length }

end JvmLinkage
