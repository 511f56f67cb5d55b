import JvmLinkage.Command.Shell
import JvmLinkage.Command.Words
import JvmLinkage.Text.Distance
import JvmLinkage.Text.Lowercase

/-!
# Commands

The commands of the program, the flags they know, and how the words of a command line lead to one.
-/

namespace JvmLinkage

/-- A command of the program. The program itself is one that has the others below it. -/
inductive Command where
  | program
  | check | inspect | install | version | help
  | completion
  | completionFor (shell : Shell)
  | complete
  deriving DecidableEq, Repr, Inhabited

namespace Command

/-! ## What there is -/

/-- The name of a command. -/
def name : Command → Text
  | program => programName
  | check => "check"
  | inspect => "inspect"
  | install => "install"
  | version => "version"
  | help => "help"
  | completion => "completion"
  | completionFor shell => shell.name
  | complete => "__complete"

/-- The name under which suggestions are asked for without descriptions. -/
def briefCompleteName : Text := "__completeNoDesc"

/-- What a command is for, in one line. -/
def summary : Command → Text
  | program => "Find linkage conflicts between a JVM project and its classpath"
  | check => "Check a project against its classpath for linkage conflicts"
  | inspect => "Print the decoded shape of classes in a jar, directory or classfile"
  | install => "Install shell completions"
  | version => "Print the version number"
  | help => "Help about any command"
  | completion => "Generate the autocompletion script for the specified shell"
  | completionFor shell => "Generate the autocompletion script for " ++ shell.name
  | complete => "Request shell completion choices for the specified command-line"

/-- The commands below a command. -/
def children : Command → List Command
  | program => [check, inspect, install, version, help, complete, completion]
  | completion => Shell.all.map completionFor
  | _ => []

/-- The names that lead from the program to a command. -/
def path : Command → Text
  | program => programName
  | completionFor shell => programName ++ " completion " ++ shell.name
  | c => programName ++ " " ++ c.name

/-- The flags of a command besides those that every command has. -/
def ownFlags : Command → List Flag
  | check =>
    [.config, .project, .classpath, .provided, .platform, .output, .jobs, .release,
      .failOnConflicts, .noCache]
  | inspect => [.className]
  | completionFor _ => [.noDescriptions]
  | _ => []

/-- The flags of a command but for the one that asks for help. -/
def workingFlags (c : Command) : List Flag := .verbose :: c.ownFlags

/-- The flags of a command. -/
def flags (c : Command) : List Flag := .help :: c.workingFlags

/-- Whether a command does something of its own. -/
def isRunnable : Command → Bool
  | program | completion => false
  | _ => true

/-- Whether a command is proposed to the user. -/
def isProposed : Command → Bool
  | help | complete => false
  | _ => true

/-! ## The way to a command -/

/-- Whether a word, read as a flag, takes the next word as its value. -/
def takesNext (known : List Flag) (word : Text) : Bool :=
  let needsValue (f : Option Flag) : Bool := (f.bind Flag.implied?).isNone
  !List.contains word Ascii.equals
    && ((word.startsWith Words.flagsEnd && needsValue (Words.named? known (word.drop 2)))
      || match word with
        | [0x2D, b] => needsValue (Words.lettered? known b)
        | _ => false)

/-- The words that are no flags and no values of flags, up to the end of flags. A flag whose value
is the last word ends the search. -/
def plainWords (known : List Flag) : List Text → List Text
  | [] => []
  | word :: rest =>
    if word = Words.flagsEnd then []
    else if takesNext known word then
      match rest with
      | _ :: next :: more => plainWords known (next :: more)
      | _ => []
    else if !word.isEmpty && word.head? ≠ some Ascii.hyphen then word :: plainWords known rest
    else plainWords known rest

/-- The words without the first plain one that is `x`. -/
def withoutPlain (known : List Flag) (x : Text) : List Text → List Text
  | [] => []
  | word :: rest =>
    if word = Words.flagsEnd then word :: rest
    else if takesNext known word then
      match rest with
      | value :: rest => word :: value :: withoutPlain known x rest
      | [] => [word]
    else if word = x then rest
    else word :: withoutPlain known x rest

/-- The command below a command that a word names. -/
def child? (c : Command) (word : Text) : Option Command :=
  c.children.find? fun d => d.name = word || (d = .complete && word = briefCompleteName)

/-- One step from a command to one below it. -/
def descend? (c : Command) (words : List Text) : Option (Command × List Text) := do
  let word ← (plainWords c.workingFlags words).head?
  let d ← c.child? word
  return (d, withoutPlain c.workingFlags word words)

/-- The command that words lead to from the program, with the words that are left. No way is longer
than two steps. -/
def locate (words : List Text) : Command × List Text :=
  match program.descend? words with
  | none => (program, words)
  | some (c, rest) => (c.descend? rest).getD (c, rest)

/-! ## Similar names -/

/-- The greatest distance of names that count as similar. -/
def similarWithin : Nat := 2

/-- The names of commands that a word resembles or begins. -/
def similarNames (word : Text) : List Text :=
  (program.children.filter fun c => c.isProposed
    && (Text.distance word.lower c.name.lower ≤ similarWithin
      || c.name.lower.startsWith word.lower)).map name

/-- The command that words lead to. The program itself takes no operands. -/
def find (words : List Text) : Except UsageFailure (Command × List Text) :=
  match locate words with
  | (program, rest) =>
    match plainWords program.workingFlags rest with
    | [] => .ok (program, rest)
    | word :: _ => .error (.unknownCommand word program.path (similarNames word))
  | found => .ok found

/-! ## Operands -/

/-- Checks the operands of a command. -/
def checkOperands (c : Command) (operands : List Text) : Except UsageFailure Unit :=
  match c, operands with
  | check, word :: _ | completionFor _, word :: _ => .error (.unknownCommand word c.path [])
  | inspect, _ =>
    if operands.length = 1 then .ok () else .error (.operandCount 1 operands.length)
  | complete, [] => .error (.tooFewOperands 1 0)
  | _, _ => .ok ()

end Command

end JvmLinkage
