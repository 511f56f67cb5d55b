import JvmLinkage.Command.Check
import JvmLinkage.Proofs.Checking
import JvmLinkage.Proofs.Linkage.World
import JvmLinkage.Proofs.Loading.Release
import JvmLinkage.Proofs.Loading.Sequence

/-!
# What the check command does

The command loads the project and the runtime, provided and platform artifacts in this order. If one
of them fails to load it ends with status 1 and reports nothing. Otherwise it checks the project and
the runtime artifacts against all of them, reports the conflicts that the filter keeps and the number
of the others, and ends with status 2 if conflicts are reported and the settings ask for it.
-/

namespace JvmLinkage

/-! ## Sessions on a tree -/

namespace Session

variable {α β : Type} {x : Session InTree α} {f : α → Session InTree β} {said said' : Transcript}
  {t t' : FileTree} {failure : CommandFailure}

theorem run_bind_ok {a : α} (h : (x.run.run said).run t = ((.ok a, said'), t')) :
    ((x >>= f).run.run said).run t = ((f a).run.run said').run t' := by
  rw [ExceptT.run_bind, StateT.run_bind, StateT.run_bind, h]
  rfl

theorem run_bind_error (h : (x.run.run said).run t = ((.error failure, said'), t')) :
    ((x >>= f).run.run said).run t = ((.error failure, said'), t') := by
  rw [ExceptT.run_bind, StateT.run_bind, StateT.run_bind, h]
  rfl

end Session

/-! ## Valid settings -/

/-- The names and paths of all artifacts of a check, in the order in which they are searched. -/
def Settings.knownArtifacts (s : Settings) : List (Text × Path) :=
  (s.projectName, s.projectPath) :: s.libraryPaths.map Path.named

/-- The artifacts of a check by the part that they play. -/
structure Classpath where
  project : Artifact
  runtime : List Artifact
  provided : List Artifact
  platform : List Artifact

namespace Classpath

/-- The artifacts that are checked. -/
def checked (c : Classpath) : List Artifact := c.project :: c.runtime

/-- All artifacts in the order in which they are searched. -/
def all (c : Classpath) : List Artifact := c.project :: (c.runtime ++ c.provided ++ c.platform)

/-- The artifacts are those that the settings name, loaded part after part. -/
def LoadedBy (c : Classpath) (l : Loader) (s : Settings) (t t' : FileTree) : Prop :=
  ∃ t₁ t₂ t₃,
    (l.loadNamed (m := InTree) s.projectName s.projectPath).run.run t = (.ok c.project, t₁) ∧
    l.Loads t₁ (s.runtimePaths.map Path.named) c.runtime t₂ ∧
    l.Loads t₂ (s.providedPaths.map Path.named) c.provided t₃ ∧
    l.Loads t₃ (s.platformPaths.map Path.named) c.platform t'

variable {c : Classpath} {l : Loader} {s : Settings} {t t' : FileTree}

theorem LoadedBy.loads (h : c.LoadedBy l s t t') : l.Loads t s.knownArtifacts c.all t' := by
  obtain ⟨t₁, t₂, t₃, hproject, hruntime, hprovided, hplatform⟩ := h
  refine .cons hproject ?_
  simp only [Settings.libraryPaths, List.map_append]
  refine Loader.loads_append.mpr ⟨_, _, t₃, rfl, ?_, hplatform⟩
  exact Loader.loads_append.mpr ⟨_, _, t₂, rfl, hruntime, hprovided⟩

end Classpath

/-! ## The command -/

/-- What is said, or left for browsing, when a report is given in the form with a name. -/
def CheckReport.transcript (output : Text) (r : CheckReport) : Transcript :=
  if output = "json" then { output := Report.json r.summary r.conflicts }
  else if output = "tui" then { browser := some ⟨r.summary, r.conflicts, some r.reachable⟩ }
  else { output := Report.plain r.summary r.conflicts }

namespace CheckCommand

variable {env : Environment} {s : Settings} {l : Loader} {t t' : FileTree}

/-- The file of a class with a static method that makes some calls. -/
def sampleFile (name method : Text) (calls : List (Text × Text)) : FileNode :=
  let body := calls.map fun (owner, called) =>
    BodyStep.invoke .static owner called "()V"
  let source : ClassSource :=
    { name, steps := [.method 0x0009 method "()V" (some (body ++ [.returnVoid]))] }
  .file source.assemble.bytes

/-- Two classes that the project calls are missing. One of them is missing for the class of a
provided artifact too. -/
def sampleTree : FileTree where
  nodes := [
    ([Text.ofString "a.class"], sampleFile "a/Main" "main"
      [("b/Base", "run"), ("x/Gone", "gone"), ("y/Optional", "go")]),
    ([Text.ofString "b.class"], sampleFile "b/Base" "run" [("c/Extra", "go")]),
    ([Text.ofString "c.class"], sampleFile "c/Extra" "go" [("x/Gone", "gone")]),
    ([Text.ofString "d.class"], sampleFile "b/Base" "stop" [])]

deriving instance DecidableEq for FileTree

end CheckCommand

end JvmLinkage
