import JvmLinkage.Proofs.Declared.Identity
import JvmLinkage.Proofs.Linkage.Resolution
import Mathlib.Logic.Relation

/-!
# Members and the hierarchy above a class

A field is found from a class on if a class above it declares it. A method is found if some way up
meets a declaration with the same static flag before any other declaration of the signature. Both
are said here with paths of parents alone, without a list of names seen, so that neither the order of
parents nor a class that is met twice can matter.
-/

namespace JvmLinkage

/-! ## What a class declares -/

namespace DeclaredClass

/-- The class has a method with the identity of `m`. -/
def DeclaresSignature (c : DeclaredClass) (m : Method) : Prop := ∃ d ∈ c.methods, d.method.key = m.key

/-- The class has a method with the identity of `m` and with its static flag. -/
def DeclaresAlike (c : DeclaredClass) (m : Method) : Prop :=
  ∃ d ∈ c.methods, d.method.key = m.key ∧ d.method.static = m.static

end DeclaredClass

namespace World

variable {w : World} {answer : DeclaredClass → Option Bool} {c owner : DeclaredClass} {m : Method}
  {f : Field}

theorem methodAnswer_eq_true_iff : methodAnswer m c = some true ↔ c.DeclaresAlike m := by
  simp only [methodAnswer, Option.map_eq_some_iff, DeclaredClass.findMethod?_eq_some_iff,
    decide_eq_true_iff, DeclaredClass.DeclaresAlike, and_assoc]

theorem methodAnswer_eq_none_iff : methodAnswer m c = none ↔ ¬ c.DeclaresSignature m := by
  rw [methodAnswer, Option.map_eq_none_iff, DeclaredClass.findMethod?, List.find?_eq_none]
  simp [DeclaredClass.DeclaresSignature]

theorem fieldAnswer_eq_true_iff : fieldAnswer f c = some true ↔ f ∈ c.fields := by
  simp [fieldAnswer, DeclaredClass.hasField]

theorem fieldAnswer_eq_none_iff : fieldAnswer f c = none ↔ f ∉ c.fields := by
  simp [fieldAnswer, DeclaredClass.hasField]

/-! ## Ways up -/

/-- The second class is what the world supplies as a parent of the first one. -/
def Inherits (w : World) (c d : DeclaredClass) : Prop := ∃ parent ∈ c.parents, w.find? parent = some d

/-- A way from a class up to a class `d`, step by step through classes of the world; `before` are the
classes on it below `d`. -/
structure IsWayUp (w : World) (c : DeclaredClass) (before : List DeclaredClass) (d : DeclaredClass) :
    Prop where
  starts : (before ++ [d]).head? = some c
  linked : (before ++ [d]).IsChain w.Inherits

theorem isWayUp_nil : IsWayUp w c [] c := ⟨rfl, .singleton c⟩

theorem IsWayUp.cons {d e : DeclaredClass} {before : List DeclaredClass} (h : IsWayUp w d before e)
    (hstep : w.Inherits c d) : IsWayUp w c (c :: before) e where
  starts := rfl
  linked := by
    rw [List.cons_append, List.isChain_cons]
    refine ⟨?_, h.linked⟩
    rw [h.starts]
    rintro _ ⟨⟩
    exact hstep

/-- A search is decided with success from a class on exactly if some way up leads to a class that
decides it with success, and no class before that decides it. -/
theorem resolves_iff_wayUp : Resolves w answer c ↔
    ∃ before d, IsWayUp w c before d ∧ answer d = some true ∧ ∀ b ∈ before, answer b = none := by
  constructor
  · intro h
    induction h with
    | here hanswer => exact ⟨[], _, isWayUp_nil, hanswer, nofun⟩
    | above hnone hparent hd _ ih =>
      obtain ⟨before, e, hway, hanswer, hbefore⟩ := ih
      refine ⟨_ :: before, e, hway.cons ⟨_, hparent, hd⟩, hanswer, ?_⟩
      exact List.forall_mem_cons.mpr ⟨hnone, hbefore⟩
  · rintro ⟨before, d, ⟨hstarts, hlinked⟩, hanswer, hbefore⟩
    induction before generalizing c with
    | nil =>
      cases hstarts
      exact .here hanswer
    | cons b before ih =>
      cases hstarts
      obtain ⟨hnone, hrest⟩ := List.forall_mem_cons.mp hbefore
      obtain ⟨hstep, hlinked⟩ := List.isChain_cons.mp hlinked
      cases hnext : (before ++ [d]).head? with
      | none => simp at hnext
      | some next =>
        obtain ⟨parent, hparent, hfind⟩ := hstep next hnext
        exact .above hnone hparent hfind (ih hnext hlinked hrest)

theorem IsWayUp.reflTransGen {d : DeclaredClass} {before : List DeclaredClass}
    (h : IsWayUp w c before d) : Relation.ReflTransGen w.Inherits c d := by
  obtain ⟨hstarts, hlinked⟩ := h
  induction before generalizing c with
  | nil =>
    cases hstarts
    exact .refl
  | cons b before ih =>
    cases hstarts
    obtain ⟨hstep, hlinked⟩ := List.isChain_cons.mp hlinked
    cases hnext : (before ++ [d]).head? with
    | none => simp at hnext
    | some next => exact .head (hstep next hnext) (ih hnext hlinked)

/-- No class decides against a field, so it does not matter what lies on the way to a declaration. -/
theorem resolves_field_iff : Resolves w (fieldAnswer f) c ↔
    ∃ d, Relation.ReflTransGen w.Inherits c d ∧ f ∈ d.fields := by
  constructor
  · intro h
    obtain ⟨before, d, hway, hanswer, -⟩ := resolves_iff_wayUp.mp h
    exact ⟨d, hway.reflTransGen, fieldAnswer_eq_true_iff.mp hanswer⟩
  · rintro ⟨d, hway, hf⟩
    induction hway using Relation.ReflTransGen.head_induction_on with
    | refl => exact .here (fieldAnswer_eq_true_iff.mpr hf)
    | @head c e hstep _ ih =>
      obtain ⟨parent, hparent, hfind⟩ := hstep
      by_cases hhere : f ∈ c.fields
      · exact .here (fieldAnswer_eq_true_iff.mpr hhere)
      · exact .above (fieldAnswer_eq_none_iff.mpr hhere) hparent hfind ih

theorem resolves_method_iff : Resolves w (methodAnswer m) c ↔
    ∃ before d, IsWayUp w c before d ∧ d.DeclaresAlike m ∧
      ∀ b ∈ before, ¬ b.DeclaresSignature m := by
  simp only [resolves_iff_wayUp, methodAnswer_eq_true_iff, methodAnswer_eq_none_iff]

/-! ## Searches for members -/

/-- Every search from the class on comes to an end, whatever the order in which parents are looked
at, and always succeeds or fails alike. -/
def Settles (w : World) (answer : DeclaredClass → Option Bool) (c : DeclaredClass) (found : Bool) :
    Prop :=
  ∀ order : DeclaredClass → List ClassName, (∀ c, (order c).Perm c.parents) →
    (∃ seen, Searched w answer order c [] found seen) ∧
      ∀ found' seen, Searched w answer order c [] found' seen → found' = found

theorem settles_resolves (hc : w.find? c.name = some c) :
    w.Settles answer c (w.resolves answer c) := by
  intro order horder
  have halike {found : Bool} {seen : List ClassName}
      (h : Searched w answer order c [] found seen) : found = w.resolves answer c := by
    rw [Bool.eq_iff_iff, h.found_iff horder hc, resolves_iff hc]
  obtain ⟨found, seen, h⟩ := exists_searched answer order (n := w.size + 1) hc listed_nil
    (by simp)
  exact ⟨⟨seen, halike h ▸ h⟩, fun _ _ h => halike h⟩

/-- From a class of a world a field is found exactly if a class there or above declares it, and a
method exactly if some way up meets a declaration with its static flag before any other declaration
of its signature. The searches end, and the order of parents does not matter to them. -/
theorem members_found_iff_wayUp (w : World) (owner : DeclaredClass)
    (howner : w.find? owner.name = some owner) :
    (∀ f : Field,
      (w.fieldMissing owner f = false ↔
        ∃ d, Relation.ReflTransGen w.Inherits owner d ∧ f ∈ d.fields) ∧
      w.Settles (fieldAnswer f) owner (!w.fieldMissing owner f)) ∧
    ∀ m : Method,
      (w.methodMissing owner m = false ↔
        ∃ before d, IsWayUp w owner before d ∧ d.DeclaresAlike m ∧
          ∀ b ∈ before, ¬ b.DeclaresSignature m) ∧
      w.Settles (methodAnswer m) owner (!w.methodMissing owner m) := by
  constructor
  · intro f
    rw [fieldMissing, Bool.not_not, Bool.not_eq_false', resolves_iff howner, resolves_field_iff]
    exact ⟨Iff.rfl, settles_resolves howner⟩
  · intro m
    rw [methodMissing, Bool.not_not, Bool.not_eq_false', resolves_iff howner, resolves_method_iff]
    exact ⟨Iff.rfl, settles_resolves howner⟩

namespace Hierarchy

def sampleMethod (static : Bool) : Method := ⟨"run", [], .void, static⟩

def sampleField : Field := ⟨"size", .plain (.primitive .int)⟩

/-- A class with a field or none, and with declarations of a method that are static or not. -/
def sampleClass (name : Text) (parents : List ClassName) (fields : List Field)
    (methods : List Bool) : DeclaredClass :=
  let b := ((ClassBuilder.start ⟨name⟩).addParents parents).addFields fields
  let methods := methods.map fun static => (⟨sampleMethod static, 1, [], []⟩ : DeclaredMethod)
  (methods.foldl (fun b d => (b.addMethod? d).getD b) b).build

/-- The first class of a diamond, with a parent that there is not. The left side of the diamond
declares the method, but not static, and leads back to where it began. -/
def sampleOwner : DeclaredClass := sampleClass "a.Start" [⟨"a.Right"⟩, ⟨"a.Gone"⟩, ⟨"a.Left"⟩] [] []

def sampleWorld : World := .ofArtifacts [.ofClasses "all" [
  sampleOwner,
  sampleClass "a.Left" [⟨"a.Top"⟩, ⟨"a.Start"⟩] [] [false],
  sampleClass "a.Right" [⟨"a.Top"⟩] [] [],
  sampleClass "a.Top" [⟨"a.Right"⟩] [sampleField] [true]]]

/-- The declaration at the top is found around the left side, and the field there as well. -/
theorem sample_members_found_iff_wayUp :
    sampleWorld.find? sampleOwner.name = some sampleOwner ∧
    (∃ d, Relation.ReflTransGen sampleWorld.Inherits sampleOwner d ∧ sampleField ∈ d.fields) ∧
    (∃ before d, IsWayUp sampleWorld sampleOwner before d ∧ d.DeclaresAlike (sampleMethod true) ∧
      ∀ b ∈ before, ¬ b.DeclaresSignature (sampleMethod true)) ∧
    sampleWorld.Settles (methodAnswer (sampleMethod true)) sampleOwner true := by
  have howner : sampleWorld.find? sampleOwner.name = some sampleOwner := by decide +kernel
  have hfield : sampleWorld.fieldMissing sampleOwner sampleField = false := by decide +kernel
  have hmethod : sampleWorld.methodMissing sampleOwner (sampleMethod true) = false := by
    decide +kernel
  obtain ⟨hfields, hmethods⟩ := members_found_iff_wayUp sampleWorld sampleOwner howner
  obtain ⟨hway, hsettles⟩ := hmethods (sampleMethod true)
  rw [hmethod] at hsettles
  exact ⟨howner, (hfields sampleField).1.mp hfield, hway.mp hmethod, hsettles⟩

end Hierarchy

end World

end JvmLinkage
