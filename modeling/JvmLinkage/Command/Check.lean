import JvmLinkage.Command.Session
import JvmLinkage.Report.Json
import JvmLinkage.Report.Plain

/-!
# The check command

The command loads the project and the other artifacts that its settings name, checks the project and
the runtime artifacts, and reports the conflicts that the filter keeps.
-/

namespace JvmLinkage

/-! ## Settings and flags -/

/-- The paths in texts that are lists of paths, seen from a directory. Empty paths are left out. -/
def splitPaths (directory : Path) (texts : List Text) : List Path :=
  ((texts.flatMap Path.splitList).filter fun p => !p.isEmpty).map (Path.absolute directory)

namespace Settings

/-- The settings changed by a value, if there is one. -/
def override {α : Type} (value? : Option α) (set : α → Settings → Settings) (s : Settings) :
    Settings :=
  match value? with
  | some value => set value s
  | none => s

/-- The settings changed by flags. Their paths are seen from the working directory. -/
def applyFlags (directory : Path) (w : Words) (s : Settings) : Settings :=
  let paths? (f : Flag) : Option (List Path) := (w.texts? f).map (splitPaths directory)
  s |> override ((w.text? .project).map (Path.absolute directory)) (fun p s => { s with classes := p })
    |> override (paths? .classpath) (fun ps s => { s with runtime := ps })
    |> override (paths? .provided) (fun ps s => { s with provided := ps })
    |> override (paths? .platform) (fun ps s => { s with platform := ps })
    |> override (w.text? .output) (fun t s => { s with output := t })
    |> override (w.number? .jobs) (fun n s => { s with jobs := some n })
    |> override (w.number? .release) (fun n s => { s with release := n })
    |> override (w.truth? .failOnConflicts) (fun b s => { s with failOnConflicts := b })
    |> override (w.truth? .noCache) (fun b s => { s with noCache := b })

/-- Where the user keeps caches, if the environment tells. -/
def userCache? (env : Environment) : Option Path :=
  let named := env.get "XDG_CACHE_HOME"
  let home := env.get "HOME"
  if !named.isEmpty then if Path.isAbsolute named then some named else none
  else if home.isEmpty then none
  else some (home ++ "/.cache")

/-- The directory of the cache that the settings ask for, if they ask for one. -/
def cacheIn? (env : Environment) (s : Settings) : Option Path :=
  if s.noCache then none
  else s.cachePath?.or ((userCache? env).map fun p => Path.join [p, "jlinkcheck"])

end Settings

/-! ## Checking -/

/-- The artifacts of a check. -/
structure LoadedArtifacts where
  project : Artifact
  libraries : List Artifact
  deriving DecidableEq, Repr

namespace LoadedArtifacts

/-- All artifacts in the order in which they are searched. -/
def all (l : LoadedArtifacts) : List Artifact := l.project :: l.libraries

/-- The artifacts that are checked: the project, and as many of the others as there are runtime
artifacts. -/
def toCheck (l : LoadedArtifacts) (runtime : Nat) : List Artifact :=
  l.project :: l.libraries.take runtime

end LoadedArtifacts

/-- What a check reports. -/
structure CheckReport where
  summary : Summary
  conflicts : List Conflict
  reachable : ReachableSet

namespace CheckReport

/-- The report of a check of loaded artifacts. -/
def ofArtifacts (s : Settings) (l : LoadedArtifacts) (elapsed : Duration) (r : CheckResult) :
    CheckReport :=
  let kept := s.filter.apply r.conflicts
  let names := (l.toCheck s.runtime.length).map Artifact.name
  { summary := .ofResult l.project.name names (r.conflicts.length - kept.length) elapsed r
    conflicts := kept
    reachable := r.reachable }

/-- Whether a report lets the command end well. -/
def isAccepted (s : Settings) (r : CheckReport) : Bool :=
  !(s.failOnConflicts && !r.conflicts.isEmpty)

end CheckReport

namespace CheckCommand

variable {m : Type → Type} [Monad m] [Host m]

/-- A loader with the cache that the settings ask for; a cache that cannot be made is done without. -/
def loaderFor (env : Environment) (s : Settings) : m Loader := do
  match s.cacheIn? env with
  | none => return { release := s.release }
  | some directory =>
    match ← Host.makeDirectories directory with
    | .ok () => return { release := s.release, cache := some directory }
    | .error _ => return { release := s.release }

/-- Loads the project and then the other artifacts. -/
def loadArtifacts (l : Loader) (s : Settings) : ExceptT LoadFailure m LoadedArtifacts := do
  let project ←
    ExceptT.adapt (LoadFailure.during .project) (l.loadNamed s.projectName s.projectPath)
  let libraries ← ExceptT.adapt (LoadFailure.during .classpath) (l.loadAll s.libraryPaths)
  return { project, libraries }

/-- Loads and checks the artifacts that the settings name. -/
def report (env : Environment) (s : Settings) : ExceptT LoadFailure m CheckReport := do
  let loader ← ExceptT.lift (loaderFor env s)
  let artifacts ← loadArtifacts loader s
  let start ← ExceptT.lift Host.clock
  let result := check (s.jobs.getD 0) artifacts.project (artifacts.toCheck s.runtime.length)
    artifacts.all
  let stop ← ExceptT.lift Host.clock
  return .ofArtifacts s artifacts ⟨stop.nanos - start.nanos⟩ result

/-- Gives a report in the form that was asked for. -/
def give (format : ReportFormat) (r : CheckReport) : Session m Unit :=
  match format with
  | .plain => Session.say (Report.plain r.summary r.conflicts)
  | .json => Session.say (Report.json r.summary r.conflicts)
  | .browser => Session.browse ⟨r.summary, r.conflicts, some r.reachable⟩

/-- Checks what the settings name, which are valid and ask for a form of report. -/
def runWith (env : Environment) (s : Settings) (format : ReportFormat) : Session m Unit := do
  let r ← Session.attempt .loading (report env s)
  give format r
  if !r.isAccepted s then throw .conflictsFound

/-- The document that settings are loaded from: the one named, or the default one if it exists. -/
def documentFor (w : Words) : m Path := do
  let named := (w.text? .config).getD []
  if !named.isEmpty then return named
  match ← Host.kind Settings.defaultDocument with
  | .ok _ => return Settings.defaultDocument
  | .error _ => return []

/-- Refuses a form of report that there is not. -/
def checkFormat (w : Words) : Session m Unit :=
  match w.text? .output with
  | some name =>
    if (ReportFormat.ofName? name).isSome then pure () else throw (.fault (.unknownOutput name))
  | none => pure ()

/-- Runs the command. -/
def run (env : Environment) (w : Words) : Session m Unit := do
  checkFormat w
  let document ← Session.ask (documentFor w)
  let loaded ← Session.attempt .settings (Settings.load env document)
  let directory ← Session.ask Host.workingDirectory
  let settings := loaded.applyFlags directory w
  let format ← Session.require .fault settings.validate
  runWith env settings format

end CheckCommand

end JvmLinkage
