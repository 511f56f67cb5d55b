import JvmLinkage.Settings.Basic
import JvmLinkage.Text.Numeral
import JvmLinkage.Text.Record

/-!
# Flags

The flags of the command line, the values they take, and how a word becomes such a value.
-/

namespace JvmLinkage

/-! ## Flags -/

/-- A flag of the command line. -/
inductive Flag where
  | verbose | help
  | config | project | classpath | provided | platform | output | jobs | release
  | failOnConflicts | noCache
  | className
  | noDescriptions
  deriving DecidableEq, Repr, Inhabited

/-- What a flag takes: a text, several texts, a number or a truth value; a counted flag only says
how often it is given. -/
inductive FlagKind where
  | text | texts | number | truth | count
  deriving DecidableEq, Repr, Inhabited

namespace Flag

/-- The name of a flag. -/
def name : Flag → Text
  | verbose => "verbose"
  | help => "help"
  | config => "config"
  | project => "project"
  | classpath => "classpath"
  | provided => "provided"
  | platform => "platform"
  | output => "output"
  | jobs => "jobs"
  | release => "release"
  | failOnConflicts => "fail-on-conflicts"
  | noCache => "no-cache"
  | className => "class"
  | noDescriptions => "no-descriptions"

/-- The letter that stands for a flag, if there is one. -/
def letter? : Flag → Option UInt8
  | verbose => some 0x76
  | help => some 0x68
  | config => some 0x63
  | project => some 0x70
  | output => some 0x6F
  | jobs => some 0x6A
  | _ => none

/-- What a flag takes. -/
def kind : Flag → FlagKind
  | verbose => .count
  | help | failOnConflicts | noCache | noDescriptions => .truth
  | jobs | release => .number
  | classpath | provided | platform => .texts
  | config | project | output | className => .text

/-- What a flag of a command is for. -/
def description (command : Text) : Flag → Text
  | verbose => "Increase log verbosity (repeatable)"
  | help => "help for " ++ command
  | config => "Config file (default ./jlinkcheck.toml when present)"
  | project => "Project classes directory or jar"
  | classpath => "Runtime artifacts to check, repeatable or path-list separated"
  | provided => "Artifacts present at runtime but not checked"
  | platform => "Platform artifacts, searched last"
  | output => "Output format"
  | jobs => "Parallel decode and check workers"
  | release => "Java release the code runs on (0 accepts any classfile version)"
  | failOnConflicts => "Exit with status 2 when conflicts are found"
  | noCache => "Do not read or write the artifact cache"
  | className => "Only print this class (dotted or slashed name)"
  | noDescriptions => "disable completion descriptions"

/-- The value of a flag that is given without one, for a flag that needs none. -/
def implied? (f : Flag) : Option Text :=
  match f.kind with
  | .truth => some "true"
  | .count => some "+1"
  | _ => none

/-- A flag as messages name it. -/
def shown (f : Flag) : Text :=
  match f.letter? with
  | some b => Ascii.hyphen :: b :: ", --" ++ f.name
  | none => "--" ++ f.name

end Flag

/-! ## Values -/

/-- A value that a flag was given. -/
inductive FlagValue where
  | text (t : Text)
  | texts (ts : List Text)
  | number (n : Int)
  | truth (b : Bool)
  | again
  deriving DecidableEq, Repr, Inhabited

/-- Why a word is no value for a flag. -/
inductive FlagValueFailure where
  | numeral (cause : NumeralFailure)
  | record (cause : RecordFailure)
  deriving DecidableEq, Repr

/-- The message of a failure. -/
def FlagValueFailure.message : FlagValueFailure → Text
  | numeral cause => cause.message
  | record cause => cause.message

/-- The value of a word. -/
def FlagKind.read (k : FlagKind) (word : Text) : Except FlagValueFailure FlagValue :=
  match k with
  | .text => .ok (.text word)
  | .texts => ((Record.parse word).map .texts).mapError .record
  | .number => (word.toIntLiteral.map .number).mapError .numeral
  | .truth => (word.toTruth.map .truth).mapError .numeral
  | .count =>
    if word = "+1" then .ok .again else (word.toIntLiteral.map .number).mapError .numeral

end JvmLinkage
