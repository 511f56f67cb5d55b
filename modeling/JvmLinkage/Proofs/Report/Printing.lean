import JvmLinkage.Report.Plain
import JvmLinkage.Proofs.Report.Grouping

/-!
# What is written when a write fails

The readable report is a fixed row of texts. A sink is offered them one by one, and nothing more
after the first one that it refuses; its failure is what the report gives.
-/

namespace JvmLinkage.Report

/-! ## Writing up to the first failure -/

section

variable {σ ε α β : Type} {write : Sink σ ε}

/-- What prints does so by printing certain texts, one after the other. -/
def Prints (write : Sink σ ε) (m : Printing σ ε α) (ts : List Text) : Prop :=
  ∀ p, (m.run p).2 = ts.foldl (fun p t => ((print write t).run p).2) p

theorem Prints.pure (a : α) : Prints write (pure a) [] := fun _ => rfl

theorem Prints.print (t : Text) : Prints write (print write t) [t] := fun _ => rfl

theorem Prints.bind {m : Printing σ ε α} {f : α → Printing σ ε β} {ts us : List Text}
    (hm : Prints write m ts) (hf : ∀ a, Prints write (f a) us) :
    Prints write (m >>= f) (ts ++ us) := fun p =>
  calc
    ((m >>= f).run p).2 = ((f (m.run p).1).run (m.run p).2).2 := rfl
    _ = us.foldl (fun p t => ((Report.print write t).run p).2) (m.run p).2 := hf _ _
    _ = _ := by rw [hm, List.foldl_append]

theorem Prints.forM {f : α → Printing σ ε PUnit} {g : α → List Text}
    (h : ∀ x, Prints write (f x) (g x)) (xs : List α) :
    Prints write (xs.forM f) (xs.flatMap g) := by
  induction xs with
  | nil => exact .pure _
  | cons x xs ih => exact (h x).bind fun _ => ih

end

/-! ## The texts of the report -/

/-- The lines about one conflict. -/
def conflictLines (c : Conflict) : List Text :=
  reasonLine c :: sourceLine c :: if c.category ≠ .classNotFound then [targetLine c] else []

/-- The lines about the conflicts of one class. -/
def classLines (g : ClassGroup) : List Text := classLine g :: g.conflicts.flatMap conflictLines

/-- The lines about the conflicts of one artifact. -/
def artifactLines (g : ArtifactGroup) : List Text :=
  artifactLine g :: g.classes.flatMap classLines

/-- The lines about the conflicts of one category. -/
def categoryLines (g : CategoryGroup) : List Text :=
  categoryLine g :: categoryRule :: g.artifacts.flatMap artifactLines

/-- The lines at the head of the report. -/
def headLines (s : Summary) : List Text := [projectLine s, extentLine s, headRule]

/-- A text about hidden conflicts, if there are such. -/
def hiddenTexts (filtered : Int) (t : Text) : List Text := if filtered > 0 then [t] else []

/-- The texts at the foot of the report. -/
def footTexts (s : Summary) (conflicts : List Conflict) : List Text :=
  if conflicts.isEmpty then noneLine :: hiddenTexts s.filtered (hiddenLine s.filtered)
  else
    totalText conflicts.length ::
      (hiddenTexts s.filtered (hiddenText s.filtered) ++ [Text.ofString "\n"])

/-- The texts of the report. -/
def texts (s : Summary) (conflicts : List Conflict) : List Text :=
  headLines s ++ ((groupConflicts conflicts).flatMap categoryLines ++ footTexts s conflicts)

section

variable {σ ε : Type} (write : Sink σ ε)

end

/-! ## The lines about conflicts -/

end JvmLinkage.Report
