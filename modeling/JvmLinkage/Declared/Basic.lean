import JvmLinkage.Descriptor.Basic
import JvmLinkage.Ascending

/-!
# Declared classes

What a class declares and what its methods refer to: the input of every check. Classes are built
step by step and end up in a canonical form, whatever the order of the steps.
-/

namespace JvmLinkage

/-- A call in a method body. The static flag of the method is that of the instruction. -/
structure Call where
  owner : ClassName
  method : Method
  line : Int
  caught : List ClassName
  deriving DecidableEq, Repr, Inhabited

/-- A read or write of a field in a method body. -/
structure Access where
  owner : ClassName
  field : Field
  static : Bool
  line : Int
  caught : List ClassName
  deriving DecidableEq, Repr, Inhabited

/-- Whether one of the guards is among the caught exceptions. -/
def catchesAny (caught guards : List ClassName) : Bool := guards.any fun g => g ∈ caught

/-- Caught exceptions in order of their names, each once. -/
def sortCaught (caught : List ClassName) : List ClassName := Ascending.ofList compare caught

namespace Call

/-- Whether an enclosing handler catches one of the exceptions. -/
def catches (c : Call) (guards : List ClassName) : Bool := catchesAny c.caught guards

/-- The call as shown to a reader. -/
def shown (c : Call) : Text := c.owner.dotted ++ "." ++ c.method.shownCall

end Call

namespace Access

/-- Whether an enclosing handler catches one of the exceptions. -/
def catches (a : Access) (guards : List ClassName) : Bool := catchesAny a.caught guards

/-- The access as shown to a reader. -/
def shown (a : Access) : Text := a.owner.dotted ++ "." ++ a.field.name

end Access

/-- A method with the references of its body; the line is that of its last line entry met. -/
structure DeclaredMethod where
  method : Method
  line : Int
  calls : List Call
  accesses : List Access
  deriving DecidableEq, Repr, Inhabited

namespace DeclaredMethod

/-- The order of methods in a class. -/
def cmp (a b : DeclaredMethod) : Ordering := Method.cmp a.method b.method

instance : Std.TransCmp cmp where
  eq_swap {a b} := Std.OrientedCmp.eq_swap (a := a.method) (b := b.method)
  isLE_trans {a b c} :=
    Std.TransCmp.isLE_trans (a := a.method) (b := b.method) (c := c.method)

/-- Whether two methods have different identities. -/
abbrev Distinct (a b : DeclaredMethod) : Prop := a.method.key ≠ b.method.key

theorem distinct_of_ne {methods : List DeclaredMethod} (h : methods.Pairwise Distinct)
    {a b : DeclaredMethod} (ha : a ∈ methods) (hb : b ∈ methods) : a ≠ b → Distinct a b := by
  let R (a b : DeclaredMethod) : Prop := a ≠ b → Distinct a b
  have hself : ∀ a ∈ methods, R a a := fun _ _ hne => absurd rfl hne
  have hfront : methods.Pairwise R := h.imp (S := R) fun hd _ => hd
  have hback : methods.Pairwise (flip R) := h.imp (S := flip R) fun hd _ => hd.symm
  exact List.Pairwise.forall_of_forall_of_flip hself hfront hback ha hb

end DeclaredMethod

/-- A class with its members. Every list of names or members is ascending, and no two methods have
the same identity. -/
structure DeclaredClass where
  name : ClassName
  parents : List ClassName := []
  loads : List ClassName := []
  fields : List Field := []
  methods : List DeclaredMethod := []
  parents_ordered : Ascending.Ordered compare parents := by decide
  loads_ordered : Ascending.Ordered compare loads := by decide
  fields_ordered : Ascending.Ordered Field.cmp fields := by decide
  methods_ordered : Ascending.Ordered DeclaredMethod.cmp methods := by decide
  methods_distinct : methods.Pairwise DeclaredMethod.Distinct := by decide
  deriving DecidableEq, Repr, Inhabited

namespace DeclaredClass

/-- The declared method with the identity of `m`, whatever its static flag. -/
def findMethod? (c : DeclaredClass) (m : Method) : Option DeclaredMethod :=
  c.methods.find? fun d => d.method.key = m.key

/-- Whether the class declares the field. -/
def hasField (c : DeclaredClass) (f : Field) : Bool := f ∈ c.fields

/-- Every call and then every access of each method, in the order of methods. -/
def shownSites (c : DeclaredClass) : List Text :=
  c.methods.flatMap fun m => m.calls.map Call.shown ++ m.accesses.map Access.shown

end DeclaredClass

/-- The parts of a class under construction. -/
structure ClassBuilder where
  name : ClassName
  parents : List ClassName := []
  loads : List ClassName := []
  fields : List Field := []
  methods : List DeclaredMethod := []
  methods_distinct : methods.Pairwise DeclaredMethod.Distinct := by decide

namespace ClassBuilder

/-- A class without parts. -/
def start (name : ClassName) : ClassBuilder := { name }

/-- Adds parents. -/
def addParents (b : ClassBuilder) (names : List ClassName) : ClassBuilder :=
  { b with parents := b.parents ++ names }

/-- Adds classes that the class loads. -/
def addLoads (b : ClassBuilder) (names : List ClassName) : ClassBuilder :=
  { b with loads := b.loads ++ names }

/-- Adds fields. -/
def addFields (b : ClassBuilder) (fields : List Field) : ClassBuilder :=
  { b with fields := b.fields ++ fields }

/-- Adds a method unless one with its identity is already there. -/
def addMethod? (b : ClassBuilder) (m : DeclaredMethod) : Option ClassBuilder :=
  if h : b.methods.any fun d => d.method.key = m.method.key then none
  else some { b with
    methods := b.methods ++ [m]
    methods_distinct := by
      refine List.pairwise_append.mpr ⟨b.methods_distinct, List.pairwise_singleton .., ?_⟩
      intro d hd e he
      rw [List.mem_singleton.mp he]
      intro heq
      exact h (List.any_eq_true.mpr ⟨d, hd, decide_eq_true heq⟩) }

/-- Sorting keeps the identities of the methods apart. -/
theorem distinct_ofList {methods : List DeclaredMethod}
    (h : methods.Pairwise DeclaredMethod.Distinct) :
    (Ascending.ofList DeclaredMethod.cmp methods).Pairwise DeclaredMethod.Distinct := by
  refine (Ascending.ordered_ofList DeclaredMethod.cmp methods).imp_of_mem ?_
  intro a b ha hb hlt
  refine DeclaredMethod.distinct_of_ne h (Ascending.mem_of_mem_ofList ha)
    (Ascending.mem_of_mem_ofList hb) ?_
  rintro rfl
  have heq : DeclaredMethod.cmp a a = .eq := Std.ReflCmp.compare_self
  simp [heq] at hlt

/-- The class of the parts. -/
def build (b : ClassBuilder) : DeclaredClass where
  name := b.name
  parents := Ascending.ofList compare b.parents
  loads := Ascending.ofList compare b.loads
  fields := Ascending.ofList Field.cmp b.fields
  methods := Ascending.ofList DeclaredMethod.cmp b.methods
  parents_ordered := Ascending.ordered_ofList ..
  loads_ordered := Ascending.ordered_ofList ..
  fields_ordered := Ascending.ordered_ofList ..
  methods_ordered := Ascending.ordered_ofList ..
  methods_distinct := distinct_ofList b.methods_distinct

end ClassBuilder

end JvmLinkage
