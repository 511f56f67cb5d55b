import JvmLinkage.Files.Path
import JvmLinkage.Report.Filter
import JvmLinkage.Text.Decimal

/-!
# Settings of a check

What is checked, against what, and how the result is reported. Paths in the settings are relative to
the directory of the file that they come from.
-/

namespace JvmLinkage

/-! ## Report formats -/

/-- The forms in which a report is given. -/
inductive ReportFormat where
  | plain | json | browser
  deriving DecidableEq, Repr, Inhabited

namespace ReportFormat

/-- The forms in the order in which they are listed. -/
def all : List ReportFormat := [plain, json, browser]

/-- The name of a form in settings and options. -/
def name : ReportFormat → Text
  | plain => "cli"
  | json => "json"
  | browser => "tui"

/-- The form with a name. -/
def ofName? (t : Text) : Option ReportFormat := all.find? fun f => f.name = t

/-- The message about a name that no form has. -/
def unknownMessage (t : Text) : Text :=
  "invalid output format: " ++ t ++ ". Valid options: [" ++ Text.join " " (all.map name) ++ "]"

end ReportFormat

/-! ## Settings -/

/-- The settings of a check. Without a number of jobs there are as many as processors. -/
structure Settings where
  name : Text := []
  classes : Path := []
  runtime : List Path := []
  provided : List Path := []
  platform : List Path := []
  filter : Filter := { includeSubpackages := true }
  failOnConflicts : Bool := false
  jobs : Option Int := none
  release : Int := 0
  cacheDirectory : Path := []
  noCache : Bool := false
  output : Text := ReportFormat.plain.name
  baseDirectory : Path := Path.here
  deriving DecidableEq, Repr, Inhabited

/-- What is wrong with settings that can be read. -/
inductive SettingsFault where
  | noClasses
  | unknownOutput (name : Text)
  | negativeJobs (n : Int)
  | oldRelease (n : Int)
  deriving DecidableEq, Repr

/-- The message of a fault. -/
def SettingsFault.message : SettingsFault → Text
  | noClasses => "project classes are not set (project.classes or --project)"
  | unknownOutput name => ReportFormat.unknownMessage name
  | negativeJobs n => "jobs must not be negative, got " ++ Text.ofInt n
  | oldRelease n => "release must be 8 or newer, got " ++ Text.ofInt n

namespace Settings

/-- The oldest release that can be asked for. -/
def oldestRelease : Int := 8

/-- The first fault of the settings, or the form of the report that they ask for. -/
def validate (s : Settings) : Except SettingsFault ReportFormat := do
  if s.classes.isEmpty then throw .noClasses
  let some format := ReportFormat.ofName? s.output | throw (.unknownOutput s.output)
  if let some n := s.jobs then
    if n < 0 then throw (.negativeJobs n)
  if s.release ≠ 0 ∧ s.release < oldestRelease then throw (.oldRelease s.release)
  return format

/-- The path seen from where the settings come from. -/
def resolve (s : Settings) (p : Path) : Path :=
  if p.isEmpty || Path.isAbsolute p then p else Path.join [s.baseDirectory, p]

/-- The name of the project, by default the last name of its path. -/
def projectName (s : Settings) : Text := if s.name.isEmpty then Path.base s.classes else s.name

/-- The path of the project. -/
def projectPath (s : Settings) : Path := s.resolve s.classes

/-- The paths of the artifacts that are checked along with the project. -/
def runtimePaths (s : Settings) : List Path := s.runtime.map s.resolve

/-- The paths of the artifacts that are known but not checked. -/
def providedPaths (s : Settings) : List Path := s.provided.map s.resolve

/-- The paths of the artifacts that are searched last. -/
def platformPaths (s : Settings) : List Path := s.platform.map s.resolve

/-- The paths of all artifacts but the project, in the order in which they are searched. -/
def libraryPaths (s : Settings) : List Path :=
  s.runtimePaths ++ s.providedPaths ++ s.platformPaths

/-- The paths of all artifacts in the order in which they are searched. -/
def knownPaths (s : Settings) : List Path := s.projectPath :: s.libraryPaths

/-- The directory of the cache, if the settings name one and want one. -/
def cachePath? (s : Settings) : Option Path :=
  if s.noCache || s.cacheDirectory.isEmpty then none else some (s.resolve s.cacheDirectory)

end Settings

end JvmLinkage
