import JvmLinkage.Report.Group
import JvmLinkage.Report.Severity

/-!
# The readable report

The report for readers is printed text after text, each written at once. The printer remembers the
first write that failed and writes nothing after it.
-/

namespace JvmLinkage.Report

/-! ## Printing -/

/-- Where texts are written to: a write changes the state of the sink, and it may fail. -/
abbrev Sink (σ ε : Type) := Text → σ → Option ε × σ

/-- A sink that takes all texts; it holds the latest one first. -/
def Sink.recording : Sink (List Text) Empty := fun t taken => (none, t :: taken)

/-- What a sink was offered: the texts that it took, and those that it refused. -/
structure Offered where
  taken : List Text := []
  refused : List Text := []
  deriving DecidableEq, Repr

/-- A sink that takes so many texts and refuses all others. -/
def Sink.limited {ε : Type} (capacity : Nat) (e : ε) : Sink Offered ε := fun t offered =>
  if offered.taken.length < capacity then (none, { offered with taken := offered.taken ++ [t] })
  else (some e, { offered with refused := offered.refused ++ [t] })

/-- A printer has the state of its sink and remembers the first failure. -/
structure Printer (σ ε : Type) where
  sink : σ
  failure : Option ε := none

/-- What prints to a sink. -/
abbrev Printing (σ ε : Type) := StateM (Printer σ ε)

section

variable {σ ε : Type} (write : Sink σ ε)

/-- Writes a text, unless a write has failed before. -/
def print (t : Text) : Printing σ ε Unit := modify fun p =>
  match p.failure with
  | some _ => p
  | none =>
    let (failure, sink) := write t p.sink
    ⟨sink, failure⟩

/-- The failure that the printer remembers. -/
def failure? : Printing σ ε (Option ε) := return (← get).failure

end

/-! ## Texts of the report -/

/-- The line that names the project. -/
def projectLine (s : Summary) : Text := "🔍 Linkage Check: " ++ s.project ++ "\n"

/-- The line about the extent of the check. -/
def extentLine (s : Summary) : Text :=
  "Artifacts: " ++ Text.ofNat s.checked.length ++ " checked  |  Classes: " ++ Text.ofInt s.known
    ++ " known, " ++ Text.ofInt s.reachable ++ " reachable, " ++ Text.ofInt s.classes
    ++ " checked  |  Duration: " ++ s.elapsed.shown ++ "\n"

/-- The rule below the head of the report. -/
def headRule : Text := Text.times 65 "═" ++ "\n"

/-- The line of a report without conflicts. -/
def noneLine : Text := "\n" ++ Severity.good.icon ++ " No linkage conflicts found\n"

/-- The line about hidden conflicts in a report without others. -/
def hiddenLine (filtered : Int) : Text :=
  "   " ++ Text.ofInt filtered ++ " conflicts hidden by package filters\n"

/-- The line above the conflicts of one category. -/
def categoryLine (g : CategoryGroup) : Text :=
  "\n" ++ (Severity.ofCategory g.category).icon ++ " " ++ g.category.title.upper ++ " ("
    ++ Text.ofNat g.count ++ ")\n"

/-- The rule below the line of a category. -/
def categoryRule : Text := Text.times 35 "─" ++ "\n"

/-- The line above the conflicts of one artifact. -/
def artifactLine (g : ArtifactGroup) : Text := "📦 " ++ g.artifact ++ "\n"

/-- The line above the conflicts of one class. -/
def classLine (g : ClassGroup) : Text := "   " ++ g.name.dotted ++ "\n"

/-- The line that says what is wrong. -/
def reasonLine (c : Conflict) : Text := "     ✗ " ++ c.reason ++ "\n"

/-- The line that says where the reference is. -/
def sourceLine (c : Conflict) : Text := "       from " ++ c.dependency.source ++ "\n"

/-- The line that says which artifact has the target's class. -/
def targetLine (c : Conflict) : Text := "       target class in " ++ c.existsIn ++ "\n"

/-- The number of all conflicts. -/
def totalText (count : Nat) : Text := "\n🎯 " ++ Text.ofNat count ++ " conflicts"

/-- What follows the number of conflicts if others are hidden. -/
def hiddenText (filtered : Int) : Text :=
  " (" ++ Text.ofInt filtered ++ " hidden by package filters)"

/-! ## The report -/

section

variable {σ ε : Type} (write : Sink σ ε)

/-- Prints the lines about one conflict. -/
def printConflict (c : Conflict) : Printing σ ε Unit := do
  print write (reasonLine c)
  print write (sourceLine c)
  if c.category ≠ .classNotFound then print write (targetLine c)

/-- Prints the lines about the conflicts of one class. -/
def printClass (g : ClassGroup) : Printing σ ε Unit := do
  print write (classLine g)
  g.conflicts.forM (printConflict write)

/-- Prints the lines about the conflicts of one artifact. -/
def printArtifact (g : ArtifactGroup) : Printing σ ε Unit := do
  print write (artifactLine g)
  g.classes.forM (printClass write)

/-- Prints the lines about the conflicts of one category. -/
def printCategory (g : CategoryGroup) : Printing σ ε Unit := do
  print write (categoryLine g)
  print write categoryRule
  g.artifacts.forM (printArtifact write)

/-- Prints the head of the report. -/
def printHead (s : Summary) : Printing σ ε Unit := do
  print write (projectLine s)
  print write (extentLine s)
  print write headRule

/-- Prints a text about hidden conflicts, if there are such. -/
def printHidden (filtered : Int) (t : Text) : Printing σ ε Unit := do
  if filtered > 0 then print write t

/-- Prints the report, and gives the failure of a write if there is one. -/
def printReport (s : Summary) (conflicts : List Conflict) : Printing σ ε (Option ε) := do
  printHead write s
  if conflicts.isEmpty then
    print write noneLine
    printHidden write s.filtered (hiddenLine s.filtered)
    failure?
  else
    (groupConflicts conflicts).forM (printCategory write)
    print write (totalText conflicts.length)
    printHidden write s.filtered (hiddenText s.filtered)
    print write "\n"
    failure?

/-- Writes the report to a sink: the failure, and the sink as it is left. -/
def writeReport (s : Summary) (conflicts : List Conflict) (sink : σ) : Option ε × σ :=
  let (failure, p) := (printReport write s conflicts).run ⟨sink, none⟩
  (failure, p.sink)

end

/-- The report as one text. -/
def plain (s : Summary) (conflicts : List Conflict) : Text :=
  Text.concat (writeReport Sink.recording s conflicts []).2.reverse

/-- Writes the report to a sink that takes `capacity` texts; the flag tells whether it failed. -/
def writePlain (capacity : Nat) (s : Summary) (conflicts : List Conflict) : Offered × Bool :=
  let (failure, offered) := writeReport (Sink.limited capacity ()) s conflicts {}
  (offered, failure.isSome)

end JvmLinkage.Report
