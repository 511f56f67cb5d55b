import JvmLinkage.Command.Flag

/-!
# Words of a command line

The words after a command are flags with their values and operands. Two hyphens alone end the flags.
The first word at fault decides.
-/

namespace JvmLinkage

/-- What is wrong with the words of a command line. -/
inductive UsageFailure where
  | unknownFlag (name : Text)
  | unknownLetter (letter : UInt8) (letters : Text)
  | malformedFlag (word : Text)
  | noValue (word : Text)
  | noLetterValue (letter : UInt8) (letters : Text)
  | badValue (flag : Flag) (word : Text) (cause : FlagValueFailure)
  | unknownCommand (word command : Text) (similar : List Text)
  | operandCount (expected received : Nat)
  | tooFewOperands (expected received : Nat)
  deriving DecidableEq, Repr

namespace UsageFailure

/-- An octet as a character between apostrophes. -/
def shownLetter (b : UInt8) : Text := Text.Quoted.encodeChar (Char.ofNat b.toNat)

/-- The lines that propose similar names. -/
def proposal (similar : List Text) : Text :=
  if similar.isEmpty then []
  else "\n\nDid you mean this?\n" ++ Text.concat (similar.map fun name => "\t" ++ name ++ "\n")

/-- The message of a failure. -/
def message : UsageFailure → Text
  | unknownFlag name => "unknown flag: --" ++ name
  | unknownLetter letter letters =>
    "unknown shorthand flag: " ++ shownLetter letter ++ " in -" ++ letters
  | malformedFlag word => "bad flag syntax: " ++ word
  | noValue word => "flag needs an argument: " ++ word
  | noLetterValue letter letters =>
    "flag needs an argument: " ++ shownLetter letter ++ " in -" ++ letters
  | badValue flag word cause =>
    "invalid argument " ++ word.quoted ++ " for " ++ flag.shown.quoted ++ " flag: " ++ cause.message
  | unknownCommand word command similar =>
    "unknown command " ++ word.quoted ++ " for " ++ command.quoted ++ proposal similar
  | operandCount expected received =>
    "accepts " ++ Text.ofNat expected ++ " arg(s), received " ++ Text.ofNat received
  | tooFewOperands expected received =>
    "requires at least " ++ Text.ofNat expected ++ " arg(s), only received " ++ Text.ofNat received

end UsageFailure

/-! ## Words and what they say -/

/-- What the words of a command line say. -/
structure Words where
  flags : List (Flag × FlagValue) := []
  operands : List Text := []
  deriving DecidableEq, Repr, Inhabited

namespace Words

/-- The values of a flag in the order in which they were given. -/
def values (w : Words) (f : Flag) : List FlagValue :=
  w.flags.filterMap fun (g, v) => if g = f then some v else none

/-- Whether a flag was given. -/
def isGiven (w : Words) (f : Flag) : Bool := !(w.values f).isEmpty

/-- The text of a flag; the last one given counts. -/
def text? (w : Words) (f : Flag) : Option Text :=
  match (w.values f).getLast? with
  | some (.text t) => some t
  | _ => none

/-- The number of a flag; the last one given counts. -/
def number? (w : Words) (f : Flag) : Option Int :=
  match (w.values f).getLast? with
  | some (.number n) => some n
  | _ => none

/-- The truth value of a flag; the last one given counts. -/
def truth? (w : Words) (f : Flag) : Option Bool :=
  match (w.values f).getLast? with
  | some (.truth b) => some b
  | _ => none

/-- The texts of a flag, all that were given one after the other. -/
def texts? (w : Words) (f : Flag) : Option (List Text) :=
  if w.isGiven f then
    some ((w.values f).flatMap fun
      | .texts ts => ts
      | _ => [])
  else none

end Words

/-! ## Reading words -/

namespace Words

/-- The word that ends the flags. -/
def flagsEnd : Text := "--"

/-- The letters at the front of words that are passed over. -/
def ignoredLetters : Text := "test."

/-- Whether a word gives flags. -/
def isFlagWord (word : Text) : Bool := word.head? = some Ascii.hyphen && 1 < word.length

/-- The flag with a name. -/
def named? (known : List Flag) (name : Text) : Option Flag := known.find? fun f => f.name = name

/-- The flag with a letter. -/
def lettered? (known : List Flag) (b : UInt8) : Option Flag :=
  known.find? fun f => f.letter? = some b

/-- A flag with the value of a word. -/
def assign (f : Flag) (word : Text) : Except UsageFailure (Flag × FlagValue) :=
  match f.kind.read word with
  | .ok v => .ok (f, v)
  | .error cause => .error (.badValue f word cause)

/-- What a word with a flag's name says, given the word after it; the truth value tells whether
that word is the flag's value. -/
def readNamed (known : List Flag) (word : Text) (next? : Option Text) :
    Except UsageFailure (List (Flag × FlagValue) × Bool) := do
  let body := word.drop 2
  if body.head? = some Ascii.hyphen ∨ body.head? = some Ascii.equals then
    throw (.malformedFlag word)
  let (name, value?) := match Text.cut? Ascii.equals body with
    | some (name, value) => (name, some value)
    | none => (body, none)
  let some f := named? known name | throw (.unknownFlag name)
  match value?.or f.implied?, next? with
  | some value, _ => return ([← assign f value], false)
  | none, some value => return ([← assign f value], true)
  | none, none => throw (.noValue word)

/-- What the letters of a word say, given the word after it; the truth value tells whether that
word is the value of the last flag. -/
def readLetters (known : List Flag) (next? : Option Text) :
    Text → Except UsageFailure (List (Flag × FlagValue) × Bool)
  | [] => .ok ([], false)
  | b :: rest => do
    let letters := b :: rest
    if Text.startsWith letters ignoredLetters then return ([], false)
    let some f := lettered? known b | throw (.unknownLetter b letters)
    if rest.head? = some Ascii.equals ∧ 1 < rest.length then
      return ([← assign f (rest.drop 1)], false)
    match f.implied? with
    | some value =>
      let first ← assign f value
      let (more, taken) ← readLetters known next? rest
      return (first :: more, taken)
    | none =>
      if !rest.isEmpty then return ([← assign f rest], false)
      match next? with
      | some value => return ([← assign f value], true)
      | none => throw (.noLetterValue b letters)

/-- What a word that gives flags says. -/
def readFlagWord (known : List Flag) (word : Text) (next? : Option Text) :
    Except UsageFailure (List (Flag × FlagValue) × Bool) :=
  if word.startsWith flagsEnd then readNamed known word next?
  else readLetters known next? (word.drop 1)

/-- What the words of a command line say, when these flags are known. -/
def read (known : List Flag) (words : List Text) : Except UsageFailure Words :=
  match words with
  | [] => .ok {}
  | word :: rest =>
    if word = flagsEnd then .ok { operands := rest }
    else if isFlagWord word then do
      let (flags, taken) ← readFlagWord known word rest.head?
      let w ← read known (if taken then rest.tail else rest)
      return { w with flags := flags ++ w.flags }
    else do
      let w ← read known rest
      return { w with operands := word :: w.operands }
termination_by words.length
decreasing_by
  · split
    · exact Nat.lt_succ_of_le (List.length_tail ▸ Nat.sub_le _ _)
    · exact Nat.lt_succ_self _
  · exact Nat.lt_succ_self _

end Words

end JvmLinkage
