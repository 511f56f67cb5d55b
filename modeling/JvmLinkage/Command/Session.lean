import JvmLinkage.Browser.Basic
import JvmLinkage.Command.Words
import JvmLinkage.Loading.Loader
import JvmLinkage.Settings.Loader

/-!
# Sessions

A command runs on a machine, says something on two channels, and ends well or for a reason.
-/

namespace JvmLinkage

/-- How the program was started. -/
structure Invocation where
  arguments : List Text
  environment : Environment
  executable : Path
  deriving Repr, Inhabited

/-- Why a command does not end well. -/
inductive CommandFailure where
  | usage (cause : UsageFailure)
  | settings (cause : SettingsFailure)
  | fault (cause : SettingsFault)
  | loading (cause : LoadFailure)
  | malformedClassName (name : Text) (cause : Malformed)
  | unknownClass (name : ClassName) (artifact : Text)
  | conflictsFound
  deriving DecidableEq, Repr

namespace CommandFailure

/-- The message of a failure; that conflicts were found is not said again. -/
def message? : CommandFailure → Option Text
  | usage cause => some cause.message
  | settings cause => some cause.message
  | fault cause => some cause.message
  | loading cause => some cause.message
  | malformedClassName name cause =>
    some ("invalid class name " ++ name.quoted ++ ": " ++ cause.message)
  | unknownClass name artifact => some ("class " ++ name.dotted ++ " not found in " ++ artifact)
  | conflictsFound => none

/-- The exit status of a failure. -/
def status : CommandFailure → Nat
  | conflictsFound => 2
  | _ => 1

end CommandFailure

/-- What a command has said so far, and what it leaves for the user to browse. -/
structure Transcript where
  output : Text := []
  errors : Text := []
  browser : Option BrowserInput := none

/-- A command on a machine. -/
abbrev Session (m : Type → Type) := ExceptT CommandFailure (StateT Transcript m)

namespace Session

variable {m : Type → Type} [Monad m]

/-- Says something to the reader of the result. -/
def say (t : Text) : Session m Unit := modify fun s => { s with output := s.output ++ t }

/-- Says something to the user. -/
def warn (t : Text) : Session m Unit := modify fun s => { s with errors := s.errors ++ t }

/-- Leaves something for the user to browse. -/
def browse (input : BrowserInput) : Session m Unit :=
  modify fun s => { s with browser := some input }

/-- Asks the machine. -/
def ask {α : Type} (x : m α) : Session m α := ExceptT.lift (StateT.lift x)

/-- Ends the command for a reason, or goes on. -/
def require {ε α : Type} (reason : ε → CommandFailure) (x : Except ε α) : Session m α :=
  ExceptT.mk (pure (x.mapError reason))

/-- Runs a part that may fail for a reason of its own. -/
def attempt {ε α : Type} (reason : ε → CommandFailure) (x : ExceptT ε m α) : Session m α := do
  require reason (← ask x.run)

end Session

/-- How a command ended and what it said. -/
structure Outcome where
  status : Nat
  transcript : Transcript

/-- Runs a command to its end and says why if it does not end well. -/
def Session.outcome {m : Type → Type} [Monad m] (x : Session m Unit) : m Outcome := do
  let (result, transcript) ← (ExceptT.run x).run {}
  match result with
  | .ok () => return ⟨0, transcript⟩
  | .error failure =>
    let said : Text := match failure.message? with
      | some message => "❌ " ++ message ++ "\n"
      | none => []
    return ⟨failure.status, { transcript with errors := transcript.errors ++ said }⟩

end JvmLinkage
