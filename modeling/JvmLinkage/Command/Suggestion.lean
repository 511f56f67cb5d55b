import JvmLinkage.Command.Basic
import JvmLinkage.Command.Session
import JvmLinkage.Text.Lowercase

/-!
# Suggestions

A shell asks which words can stand where the user is typing. The answer is a list of words, some of
them with descriptions, and tells the shell whether to add names of files.
-/

namespace JvmLinkage

/-- What the shell is to do with suggestions: go on as usual, give up, or add no names of files. -/
inductive Directive where
  | standard | failure | noFiles
  deriving DecidableEq, Repr, Inhabited

namespace Directive

/-- The number of a directive. -/
def code : Directive → Nat
  | standard => 0
  | failure => 1
  | noFiles => 4

/-- The name of a directive. -/
def name : Directive → Text
  | standard => "ShellCompDirectiveDefault"
  | failure => "ShellCompDirectiveError"
  | noFiles => "ShellCompDirectiveNoFileComp"

end Directive

/-- A word that can be typed, with a description that may be empty. -/
structure Suggestion where
  word : Text
  description : Text := []
  deriving DecidableEq, Repr, Inhabited

/-- What is suggested, or the complaint that there is nothing to suggest. -/
structure Suggestions where
  items : List Suggestion := []
  directive : Directive := .standard
  complaint : Option Text := none
  deriving DecidableEq, Repr, Inhabited

namespace Suggestions

/-! ## Files -/

/-- The endings of the names of artifacts. -/
def artifactExtensions : List Text := [".jar", ".zip", ".class"]

/-- The endings of the names of settings documents. -/
def documentExtensions : List Text := [".toml"]

/-- The path that a name in a directory suggests; a file needs one of the endings, in any case. -/
def pathOf? (extensions : List Text) (directory : Path) (name : Text) (kind : FileKind) :
    Option Path :=
  let path := if directory = Path.here then name else Path.join [directory, name]
  if kind = .directory then some (path ++ Path.root)
  else if extensions.contains (Path.extension name).lower then some path
  else none

/-- The paths that begin as typed: of directories, and of files with one of the endings. Hidden ones
are left out. -/
def ofFiles {m : Type → Type} [Monad m] [Host m] (extensions : List Text) (typed : Text) :
    m Suggestions := do
  let (parent, start) := Path.split typed
  let directory := if parent.isEmpty then Path.here else parent
  match ← Host.list directory with
  | .error _ => return { directive := .failure }
  | .ok entries =>
    let visible := entries.filter fun (name, _) =>
      !name.startsWith Path.here && name.startsWith start
    let paths := visible.filterMap fun (name, kind) => pathOf? extensions directory name kind
    return { items := (Text.sort paths).map fun p => { word := p }, directive := .noFiles }

/-! ## Commands and flags -/

/-- The commands below a command that begin as typed, in ascending order. -/
def ofCommands (c : Command) (typed : Text) : List Suggestion :=
  let shown := c.children.filter fun d => d.isProposed || d = .help
  let found := shown.filter fun d => d.name.startsWith typed
  (found.mergeSort fun a b => a.name.le b.name).map fun d => ⟨d.name, d.summary⟩

/-- The ways of writing a flag that begin as typed. -/
def ofFlag (c : Command) (typed : Text) (f : Flag) : List Suggestion :=
  let long := "--" ++ f.name
  let short : List Text := f.letter?.toList.map fun b => [Ascii.hyphen, b]
  ((long :: short).filter fun t => t.startsWith typed).map fun t => ⟨t, f.description c.name⟩

/-- The flags of a command in the order in which they are suggested: those of the program first. -/
def orderedFlags (c : Command) : List Flag :=
  let sort (fs : List Flag) : List Flag := fs.mergeSort fun a b => a.name.le b.name
  if c = .program then sort c.flags else .verbose :: sort (.help :: c.ownFlags)

/-- The flags that begin as typed and can still be given. -/
def ofFlags (c : Command) (w : Words) (typed : Text) : List Suggestion :=
  ((orderedFlags c).filter fun f => !w.isGiven f || f.kind = .texts).flatMap (ofFlag c typed)

/-! ## What is being typed -/

/-- What is being typed: an operand, a flag, or the value of a flag. `before` holds the words that
stand before it. -/
structure Typing where
  flag : Option Flag := none
  before : List Text
  typed : Text
  deriving DecidableEq, Repr

/-- The last octet of a text as a text of its own. -/
def lastLetter (t : Text) : Text := t.drop (t.length - 1)

/-- The name or letter that a word gives a flag by. -/
def flagNameIn (word : Text) : Text :=
  if word.startsWith Words.flagsEnd then word.drop 2 else lastLetter word

/-- The flag with a name or letter. -/
def lookUp? (c : Command) (name : Text) : Option Flag :=
  match name with
  | [b] => Words.lettered? c.flags b
  | _ => Words.named? c.flags name

/-- Whether a word gives a flag and nothing else. -/
def isWholeFlag (word : Text) : Bool :=
  Words.isFlagWord word && word ≠ Words.flagsEnd && !List.contains word Ascii.equals

/-- Whether what is typed can become the name of a flag. -/
def isFlagStart (typed : Text) : Bool :=
  typed.head? = some Ascii.hyphen && !List.contains typed Ascii.equals

/-- What is being typed after some words of a command, or the name of a flag that it does not have. -/
def typingAt (c : Command) (before : List Text) (typed : Text) : Except Text Typing :=
  let ofName (before' : List Text) (typed' name : Text) (joined : Bool) : Except Text Typing :=
    match lookUp? c name with
    | none => .error name
    | some f =>
      if joined || f.implied?.isNone then .ok ⟨some f, before', typed'⟩
      else .ok ⟨none, before, typed'⟩
  let ofPrevious (typed' : Text) (joined : Bool) : Except Text Typing :=
    match before.getLast? with
    | some word =>
      if isWholeFlag word then ofName before.dropLast typed' (flagNameIn word) joined
      else .ok ⟨none, before, typed'⟩
    | none => .ok ⟨none, before, typed'⟩
  if typed.head? = some Ascii.hyphen then
    match Text.cut? Ascii.equals typed with
    | none => .ok ⟨none, before, typed⟩
    | some (word, value) =>
      if (flagNameIn word).isEmpty then ofPrevious value true
      else ofName before value (flagNameIn word) true
  else ofPrevious typed false

/-- Words between brackets. -/
def bracketed (words : List Text) : Text := "[" ++ Text.join " " words ++ "]"

/-- Whether flags have ended before more words. -/
def flagsEnded (c : Command) (before : List Text) : Bool :=
  let count (words : List Text) : Nat :=
    ((Words.read c.flags words).map (·.operands.length)).toOption.getD 0
  count before < count (before ++ [Words.flagsEnd])

variable {m : Type → Type} [Monad m] [Host m]

/-- The values of a flag that begin as typed. -/
def ofFlagValue (f : Flag) (typed : Text) : m Suggestions :=
  match f with
  | .config => ofFiles documentExtensions typed
  | .project | .classpath | .provided | .platform => ofFiles artifactExtensions typed
  | .output =>
    return { items := ReportFormat.all.map fun r => { word := r.name }, directive := .noFiles }
  | _ => return {}

/-- The commands below a command, which can be typed where no operand stands before them. -/
def ofFirstOperand (c : Command) (operands : List Text) (typed : Text) : Suggestions :=
  if operands.isEmpty && !c.children.isEmpty then
    { items := ofCommands c typed, directive := .noFiles }
  else {}

/-- The operands of a command that begin as typed, after others. -/
def ofOperand (c : Command) (operands : List Text) (typed : Text) : m Suggestions :=
  let below := ofFirstOperand c operands typed
  match c with
  | .inspect => ofFiles artifactExtensions typed
  | .help =>
    match Command.find operands with
    | .ok (d, _) => return { items := ofCommands d typed, directive := .noFiles }
    | .error _ => return { directive := .noFiles }
  | .completion | .completionFor _ => return { below with directive := .noFiles }
  | _ => return below

/-- What can be typed at a place. Past the end of flags only operands can. -/
def ofTyping (c : Command) (w : Words) (ended : Bool) (t : Typing) : m Suggestions :=
  if w.isGiven .help then return { directive := .noFiles }
  else if ended then ofOperand c w.operands t.typed
  else match t.flag with
    | some f =>
      if c.children.isEmpty then ofFlagValue f t.typed
      else return ofFirstOperand c w.operands t.typed
    | none =>
      if isFlagStart t.typed then return { items := ofFlags c w t.typed, directive := .noFiles }
      else ofOperand c w.operands t.typed

/-- What can be typed after some words of a command. -/
def within (c : Command) (before : List Text) (typed : Text) : m Suggestions :=
  let typing := typingAt c before typed
  let t := typing.toOption.getD ⟨none, before, typed⟩
  let ended := flagsEnded c t.before
  match Words.read c.flags t.before, typing with
  | .error cause, _ => return {
      complaint := some ("Error while parsing flags from args " ++ bracketed t.before ++ ": "
        ++ cause.message) }
  | .ok w, .error name =>
    if ended then ofTyping c w ended t else return {
      complaint := some ("Subcommand '" ++ c.name ++ "' does not support flag '" ++ name ++ "'") }
  | .ok w, .ok _ => ofTyping c w ended t

/-- What can be typed as the last of some words. -/
def ofWords (words : List Text) : m Suggestions :=
  let before := words.dropLast
  let typed := words.getLast?.getD []
  match Command.find before with
  | .error _ => return {
      complaint := some ("unable to find a command for arguments: " ++ bracketed before) }
  | .ok (.complete, _) =>
    if isFlagStart typed then
      return { items := ofFlag .complete typed .verbose, directive := .noFiles }
    else return {}
  | .ok (c, rest) => within c rest typed

/-! ## Telling the shell -/

/-- The line for a suggestion, with its description unless it is to be brief. -/
def shownItem (brief : Bool) (s : Suggestion) : Text :=
  let full : Text := if s.description.isEmpty then s.word else s.word ++ "\t" ++ s.description
  let kept := if brief then ((Text.splitOn Ascii.tab full).head?).getD [] else full
  (((Text.splitOn Ascii.newline kept).head?).getD []).trim ++ "\n"

/-- Tells the shell what is suggested. -/
def tell (brief : Bool) (s : Suggestions) : Session m Unit := do
  if let some complaint := s.complaint then Session.warn ("[Debug] [Error] " ++ complaint ++ "\n")
  Session.say (s.items.flatMap (shownItem brief) ++ ":" ++ Text.ofNat s.directive.code ++ "\n")
  Session.warn ("Completion ended with directive: " ++ s.directive.name ++ "\n")

end Suggestions

end JvmLinkage
