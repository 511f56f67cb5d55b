import JvmLinkage.Command.Session
import JvmLinkage.Command.Shell

/-!
# The install command

The command puts the script of the user's shell into its place. Most other commands do so, too, when
the script is missing.
-/

namespace JvmLinkage

namespace InstallCommand

variable {m : Type → Type} [Monad m] [Host m]

/-- The home directory. -/
def homeIn (env : Environment) : Path := env.get "HOME"

/-- Whether the script of a shell is in its place. -/
def isInstalled (env : Environment) (shell : Shell) : m Bool := do
  return (← Host.kind (shell.scriptPath (homeIn env))).toBool

/-- Puts the script of a shell into its place. -/
def installScript (env : Environment) (shell : Shell) : m (Except FileFailure Unit) := do
  match ← Host.makeDirectories (shell.scriptDirectory (homeIn env)) with
  | .ok () => Host.write (shell.scriptPath (homeIn env)) shell.script
  | .error failure => return .error failure

/-- The lines that tell how to make a running shell read its script. -/
def advice (env : Environment) (shell : Shell) : Text :=
  "🔄 Run this command to enable auto-completions:\n   " ++ shell.activation (homeIn env) ++ "\n"

/-- Whether the directory of the program is searched for programs. -/
def isOnPath (i : Invocation) : Bool :=
  (Text.splitOn Ascii.colon (i.environment.get "PATH")).contains (Path.directory i.executable)

/-- What to do so that the program is found. -/
def pathAdvice (i : Invocation) : Text :=
  "❌ " ++ programName ++ " not in PATH. Binary location: " ++ i.executable ++ "\n\n"
    ++ "Add to shell profile: export PATH=\"" ++ Path.directory i.executable ++ ":$PATH\"\n"
    ++ "Or copy to: /usr/local/bin\n"

/-- What is said about a shell that has no script. -/
def unknownShell (name : Text) : Text :=
  "❌ Shell completion not supported for: " ++ name ++ "\nSupported shells: "
    ++ Text.join ", " (Shell.all.map Shell.name) ++ "\n"

/-- Runs the command. -/
def run (i : Invocation) : Session m Unit := do
  let env := i.environment
  if !isOnPath i then
    Session.say (pathAdvice i)
    return
  let name := Shell.nameIn env
  match Shell.ofName? name with
  | none => Session.say (unknownShell name)
  | some shell =>
    if ← Session.ask (isInstalled env shell) then
      Session.say "✅ Already configured!\n"
    else
      Session.say "📦 Installing completions...\n"
      match ← Session.ask (installScript env shell) with
      | .ok () =>
        Session.say (advice env shell ++ "✅ Done! Restart your shell to enable tab completion.\n")
      | .error failure => Session.say ("❌ Failed: " ++ failure.message ++ "\n")

/-- Installs the script of the user's shell if it is missing, and tells about it. -/
def firstRun (env : Environment) : Session m Unit := do
  match Shell.ofName? (Shell.nameIn env) with
  | none => return
  | some shell =>
    if ← Session.ask (isInstalled env shell) then return
    Session.warn ("🔧 First run detected, setting up " ++ programName ++ "...\n")
    match ← Session.ask (installScript env shell) with
    | .ok () =>
      Session.warn (advice env shell ++ "✅ Shell completions installed\n"
        ++ "💡 Restart your shell to enable tab completion\n")
    | .error _ =>
      Session.warn ("⚠️  Auto-setup failed. Run '" ++ programName ++ " install' to try again.\n")

end InstallCommand

end JvmLinkage
