import JvmLinkage.Files.Host
import JvmLinkage.Settings.EnvironmentFile
import JvmLinkage.Settings.Section
import JvmLinkage.Text.Numeral

/-!
# Loading settings

Settings start from defaults, which a document changes. Variables change them further: those of the
process, and for those it does not have, the ones of an environment file beside the document.
-/

namespace JvmLinkage

/-- Why settings cannot be loaded. -/
inductive SettingsFailure where
  | unreadable (path : Path) (cause : FileFailure)
  | malformed (path : Path)
  | environment (path : Path)
  | badVariable (name value : Text) (cause : NumeralFailure)
  deriving DecidableEq, Repr

/-- The message of a failure. -/
def SettingsFailure.message : SettingsFailure → Text
  | unreadable path cause => "failed to parse config " ++ path ++ ": " ++ cause.message
  | malformed path => "failed to parse config " ++ path ++ ": not a settings document"
  | environment path => "failed to read " ++ path ++ ": not an environment file"
  | badVariable name value cause =>
    "invalid " ++ name ++ " " ++ value.quoted ++ ": " ++ cause.message

namespace Settings

/-! ## Variables -/

/-- The variable for the number of jobs. -/
def jobsVariable : Text := "JLINKCHECK_JOBS"

/-- The variable for the release. -/
def releaseVariable : Text := "JLINKCHECK_RELEASE"

/-- The variable that turns the cache off. -/
def noCacheVariable : Text := "JLINKCHECK_NO_CACHE"

/-- The variable for the directory of the cache. -/
def cacheDirectoryVariable : Text := "JLINKCHECK_CACHE_DIR"

/-- The variable for the form of the report. -/
def outputVariable : Text := "JLINKCHECK_OUTPUT"

/-- The settings changed by a variable, if it has a value. The value is read without the blanks
around it. -/
def applyVariable {α : Type} (name : Text) (read : Text → Except NumeralFailure α)
    (set : α → Settings → Settings) (env : Environment) (s : Settings) :
    Except SettingsFailure Settings :=
  match env.get? name with
  | none => .ok s
  | some value =>
    match read value.trim with
    | .ok a => .ok (set a s)
    | .error cause => .error (.badVariable name value cause)

/-- The changes by variables in the order in which they are made. -/
def variableSteps : List (Environment → Settings → Except SettingsFailure Settings) :=
  [applyVariable jobsVariable Text.toInt fun n s => { s with jobs := some n },
    applyVariable releaseVariable Text.toInt fun n s => { s with release := n },
    applyVariable noCacheVariable Text.toTruth fun b s => { s with noCache := b },
    fun env s => .ok (match env.get? cacheDirectoryVariable with
      | some value => { s with cacheDirectory := value }
      | none => s),
    applyVariable outputVariable .ok fun t s => { s with output := t }]

/-- Makes changes one after the other up to the first that fails. -/
def applySteps (env : Environment) :
    List (Environment → Settings → Except SettingsFailure Settings) → Settings →
      Settings × Option SettingsFailure
  | [], s => (s, none)
  | step :: steps, s =>
    match step env s with
    | .ok s => applySteps env steps s
    | .error failure => (s, some failure)

/-- The settings changed by variables up to the first with a value that cannot be read. -/
def applyVariables (env : Environment) (s : Settings) : Settings × Option SettingsFailure :=
  applySteps env variableSteps s

/-! ## Files -/

/-- The name of the document that is looked for when none is named. -/
def defaultDocument : Path := "jlinkcheck.toml"

/-- The name of the environment file beside a document. -/
def environmentName : Text := ".env"

variable {m : Type → Type} [Monad m] [Host m]

/-- The settings of the document at a path, or the defaults if the path is empty. -/
def loadDocument (path : Path) : ExceptT SettingsFailure m Settings := do
  if path.isEmpty then return {}
  match ← ExceptT.lift (Host.read path) with
  | .error cause => throw (.unreadable path cause)
  | .ok content =>
    match read? content {} with
    | some s => return { s with baseDirectory := Path.directory path }
    | none => throw (.malformed path)

/-- The variables of the environment file in a directory; without the file there are none. -/
def loadEnvironment (directory : Path) : ExceptT SettingsFailure m Environment := do
  let path := Path.join [directory, environmentName]
  match ← ExceptT.lift (Host.read path) with
  | .error cause =>
    if cause.reason = .missing then return []
    throw (.environment path)
  | .ok content =>
    match EnvironmentFile.parse? content with
    | some env => return env
    | none => throw (.environment path)

/-- The settings of the document at a path and of the variables. -/
def load (env : Environment) (path : Path) : ExceptT SettingsFailure m Settings := do
  let s ← loadDocument path
  let fromFile ← loadEnvironment s.baseDirectory
  match s.applyVariables (env ++ fromFile) with
  | (s, none) => return s
  | (_, some failure) => throw failure

end Settings

end JvmLinkage
