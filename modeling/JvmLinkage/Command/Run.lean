import JvmLinkage.Command.Check
import JvmLinkage.Command.Inspect
import JvmLinkage.Command.Install
import JvmLinkage.Command.Suggestion

/-!
# Running the program

The words of the command line lead to a command, which is run unless help is asked for or its flags
or operands are at fault.
-/

namespace JvmLinkage

namespace Command

/-- The version of the program. -/
def versionName : Text := "dev"

/-- A line of a list of commands or flags. -/
def helpLine (name description : Text) : Text := "  " ++ name ++ "\t" ++ description ++ "\n"

/-- What is said about a command when help is asked for. -/
def helpText (c : Command) : Text :=
  let commands := (Suggestions.ofCommands c []).flatMap fun s => helpLine s.word s.description
  let flags := (Suggestions.orderedFlags c).flatMap fun f => helpLine f.shown (f.description c.name)
  let listed : Text := if commands.isEmpty then [] else "\nCommands:\n" ++ commands
  c.summary ++ "\n\nUsage:\n  " ++ c.path ++ " [flags]\n" ++ listed ++ "\nFlags:\n" ++ flags

/-- Whether a command installs the script of the user's shell when it is missing. -/
def installsScript : Command → Bool
  | install | version | help => false
  | _ => true

variable {m : Type → Type} [Monad m] [Host m]

/-- Does the work of a command whose words are in order. -/
def work (i : Invocation) (c : Command) (w : Words) : Session m Unit :=
  match c, w.operands with
  | .check, _ => CheckCommand.run i.environment w
  | .inspect, path :: _ => InspectCommand.run w path
  | .install, _ => InstallCommand.run i
  | .version, _ => Session.say (programName ++ " version " ++ versionName ++ "\n")
  | .help, topic => Session.say (helpText (((find topic).map Prod.fst).toOption.getD .program))
  | .completionFor shell, _ => Session.say shell.script
  | _, _ => pure ()

/-- Tells a shell what can be typed as the last of some words. -/
def tellShell (i : Invocation) (words : List Text) : Session m Unit := do
  Session.require .usage (checkOperands .complete words)
  InstallCommand.firstRun i.environment
  let brief := (plainWords program.workingFlags i.arguments).head? = some briefCompleteName
  Suggestions.tell brief (← Session.ask (Suggestions.ofWords words))

/-- Runs the command that the words of the command line lead to. -/
def session (i : Invocation) : Session m Unit := do
  let (c, rest) ← Session.require .usage (find i.arguments)
  if c = .complete then tellShell i rest
  else
    let w ← Session.require .usage (Words.read c.flags rest)
    if w.truth? .help = some true || !c.isRunnable then Session.say (helpText c)
    else
      Session.require .usage (c.checkOperands w.operands)
      if c.installsScript then InstallCommand.firstRun i.environment
      work i c w

/-- Runs the program. -/
def run (i : Invocation) : m Outcome := (session i).outcome

end Command

end JvmLinkage
