import JvmLinkage.Declared.Decoder
import JvmLinkage.Proofs.Assembler.Labels
import JvmLinkage.Proofs.Text.ModifiedUtf8
import Mathlib.Algebra.GroupWithZero.Nat

/-!
# What a class source declares

The source of a class says which members the class has and what their bodies refer to. Only the
positions of instructions depend on how the class is assembled, since a constant with a small index is
loaded by a shorter instruction. Everything else is read off the steps: the line in force is that of
the last mark before an instruction, and an exception is caught around an instruction if a guard
encloses its position.
-/

namespace JvmLinkage

/-! ## Names and signatures -/

/-- The class whose name has its parts divided by slashes. -/
def ClassName.ofSlashed (name : Text) : ClassName := ⟨name.replace Ascii.slash Ascii.dot⟩

/-- The method of a signature that can be read. -/
def Method.ofRaw (raw name : Text) (static : Bool) : Method :=
  (Method.parse raw name static).toOption.getD default

/-- The field of a type that can be read. -/
def Field.ofRaw (name raw : Text) : Field := (Field.parse name raw).toOption.getD default

/-- The type of an encoded form that can be read. -/
def FieldType.ofRaw (raw : Text) : FieldType := (FieldType.parse raw).toOption.getD default

/-! ## Bodies -/

/-- A step of a body and the position in the code at which it is taken. -/
structure Placed where
  pc : Nat
  step : BodyStep
  deriving DecidableEq, Repr

/-- An instruction of a body, its position and the source line in force. -/
structure Spot where
  pc : Nat
  line : Int
  step : BodyStep
  deriving DecidableEq, Repr

namespace BodyStep

/-- Whether the step appends an instruction. -/
def isInstruction : BodyStep → Bool
  | line _ | guarded .. | constant _ => false
  | _ => true

/-- The source line in force after the step. -/
def lineAfter (before : Int) : BodyStep → Int
  | line n => n
  | _ => before

/-- The class of exceptions that the step guards a position against. -/
def catches? (pc : Nat) : BodyStep → Option ClassName
  | guarded start stop _ catchType =>
    if !catchType.isEmpty && start ≤ pc && pc < stop then some (.ofSlashed catchType) else none
  | _ => none

end BodyStep

/-- The instructions of a body in order, with the line in force before it. -/
def spotsFrom (line : Int) : List Placed → List Spot
  | [] => []
  | ⟨pc, step⟩ :: rest =>
    let spots := spotsFrom (step.lineAfter line) rest
    if step.isInstruction then ⟨pc, line, step⟩ :: spots else spots

/-- The exceptions caught around a position of a body. -/
def caughtAround (body : List Placed) (pc : Nat) : List ClassName :=
  sortCaught (body.filterMap fun p => p.step.catches? pc)

namespace Spot

/-- The call of an invocation, unless no declaration could ever match it. -/
def callOf? (body : List Placed) (pc : Nat) (line : Int) (owner : Text) (method : Method) :
    Option Call :=
  if Decoder.isArrayName owner || Decoder.anySignatureOwners.contains owner then none
  else some ⟨.ofSlashed owner, method, line, caughtAround body pc⟩

def call? (body : List Placed) (s : Spot) : Option Call :=
  match s.step with
  | .invoke use owner name descriptor =>
    callOf? body s.pc s.line owner (.ofRaw descriptor name (use = .static))
  | .invokeInterface owner name descriptor _ =>
    callOf? body s.pc s.line owner (.ofRaw descriptor name false)
  | _ => none

/-- The access of a field instruction, unless an array is its owner. -/
def access? (body : List Placed) (s : Spot) : Option Access :=
  match s.step with
  | .access use owner name descriptor =>
    if Decoder.isArrayName owner then none
    else some ⟨.ofSlashed owner, .ofRaw name descriptor, use ≠ .getField, s.line,
      caughtAround body s.pc⟩
  | _ => none

/-- The class of a class literal; of an array that of its elements, if they are no primitives. -/
def load? (s : Spot) : Option ClassName :=
  match s.step with
  | .classLiteral name =>
    if Decoder.isArrayName name then
      match FieldType.ofRaw name with
      | .array (.reference c) _ => some c
      | _ => none
    else some (.ofSlashed name)
  | _ => none

end Spot

/-! ## Methods -/

/-- A method of a source, with its steps at their positions and the size of its code. -/
structure PlacedMethod where
  access : UInt16
  name : Text
  descriptor : Text
  body : Option (List Placed)
  size : Option Nat
  deriving DecidableEq, Repr

namespace PlacedMethod

variable (m : PlacedMethod)

def steps : List Placed := m.body.getD []

def spots : List Spot := spotsFrom 0 m.steps

/-- Whether the access flags say that the method is static; the class initialiser always is. -/
def static : Bool :=
  m.access &&& 0x0008 ≠ 0 ||
    (m.name = Method.classInit.name && m.descriptor = Method.classInit.raw)

/-- The method with its calls and accesses in order; its line is that of its last instruction. -/
def declared : DeclaredMethod where
  method := .ofRaw m.descriptor m.name m.static
  line := (m.spots.getLast?.map Spot.line).getD 0
  calls := m.spots.filterMap (Spot.call? m.steps)
  accesses := m.spots.filterMap (Spot.access? m.steps)

def loads : List ClassName := m.spots.filterMap Spot.load?

end PlacedMethod

namespace Assembler

/-- The steps of a body at the positions at which the assembler takes them. -/
def place (a : Assembler) (b : Body) : List BodyStep → List Placed
  | [] => []
  | s :: rest =>
    let next := (step b s).run a
    ⟨b.code.length, s⟩ :: place next.2 next.1 rest

/-- The method that a step of a class adds. -/
def placed? (a : Assembler) : ClassStep → Option PlacedMethod
  | .method access name descriptor body =>
    some {
      access, name, descriptor
      body := body.map (place ((memberHead access name descriptor).run a).2 {})
      size := ((method access name descriptor body).run a).1 }
  | _ => none

/-- The methods that the steps of a class add. -/
def placedFrom (a : Assembler) : List ClassStep → List PlacedMethod
  | [] => []
  | c :: rest => (a.placed? c).toList ++ placedFrom ((classStep c).run a).2 rest

end Assembler

/-! ## Classes -/

namespace ClassStep

/-- The name and the descriptor of the field that the step adds. -/
def field? : ClassStep → Option (UInt16 × Text × Text)
  | field access name descriptor => some (access, name, descriptor)
  | _ => none

/-- The name and the descriptor of the method that the step adds. -/
def signature? : ClassStep → Option (Text × Text)
  | method _ name descriptor _ => some (name, descriptor)
  | _ => none

end ClassStep

namespace ClassSource

variable (s : ClassSource)

def parents : List ClassName :=
  ((if s.superName.isEmpty then [] else [s.superName]) ++ s.interfaces).map .ofSlashed

def fields : List Field :=
  (s.steps.filterMap ClassStep.field?).map fun (_, name, descriptor) => .ofRaw name descriptor

def methods : List PlacedMethod :=
  Assembler.placedFrom ((Assembler.start s.name s.superName s.interfaces).run {}).2 s.steps

/-- The class has the name, the parents and the members of the source, and loads what their bodies
load. All lists of a class are ascending, so that this determines the class. -/
structure Describes (c : DeclaredClass) : Prop where
  name : c.name = .ofSlashed s.name
  parents : ∀ p, p ∈ c.parents ↔ p ∈ s.parents
  fields : ∀ f, f ∈ c.fields ↔ f ∈ s.fields
  methods : ∀ d, d ∈ c.methods ↔ ∃ m ∈ s.methods, d = m.declared
  loads : ∀ l, l ∈ c.loads ↔ ∃ m ∈ s.methods, l ∈ m.loads

end ClassSource

/-! ## Valid sources -/

/-- A number of sixteen bits. -/
def IsWord (n : Int) : Prop := 0 ≤ n ∧ n < 65536

instance : DecidablePred IsWord := fun n => inferInstanceAs (Decidable (0 ≤ n ∧ n < 65536))

/-- The text names an array type or a class. -/
def NamesOwner (owner : Text) : Prop := Decoder.isArrayName owner ∨ (ClassName.parse owner).isOk

instance : DecidablePred NamesOwner := fun owner =>
  inferInstanceAs (Decidable (Decoder.isArrayName owner ∨ (ClassName.parse owner).isOk))

namespace BodyStep

def isLine : BodyStep → Bool
  | line _ => true
  | _ => false

def isGuard : BodyStep → Bool
  | guarded .. => true
  | _ => false

def texts : BodyStep → List Text
  | guarded _ _ _ catchType => [catchType]
  | invoke _ owner name descriptor | invokeInterface owner name descriptor _
  | access _ owner name descriptor => [owner, name, descriptor]
  | classLiteral name => [name]
  | stringLiteral s => [s]
  | constant item => item.texts
  | _ => []

/-- The step is a mark or an instruction with an opcode of its own, its names and descriptors can be
read, and its numbers fit in sixteen bits. -/
def Valid : BodyStep → Prop
  | emit .. => False
  | line n => IsWord n
  | guarded start stop target catchType =>
    IsWord start ∧ IsWord stop ∧ IsWord target ∧
      (catchType = [] ∨ (ClassName.parse catchType).isOk)
  | invoke _ owner name descriptor =>
    (PoolItem.memberRef .method owner name descriptor).Valid ∧ NamesOwner owner ∧
      (Method.parse descriptor name false).isOk
  | invokeInterface owner name descriptor _ =>
    (PoolItem.memberRef .interfaceMethod owner name descriptor).Valid ∧ NamesOwner owner ∧
      (Method.parse descriptor name false).isOk
  | access _ owner name descriptor =>
    (PoolItem.memberRef .field owner name descriptor).Valid ∧ NamesOwner owner ∧
      (Field.parse name descriptor).isOk
  | classLiteral name =>
    if Decoder.isArrayName name then (FieldType.parse name).isOk else (ClassName.parse name).isOk
  | stringLiteral _ | pop | returnVoid => True
  | constant item => item.Valid

instance : DecidablePred Valid
  | emit .. => inferInstanceAs (Decidable False)
  | line n => inferInstanceAs (Decidable (IsWord n))
  | guarded .. => inferInstanceAs (Decidable (_ ∧ _ ∧ _ ∧ _))
  | invoke .. | invokeInterface .. | access .. => inferInstanceAs (Decidable (_ ∧ _ ∧ _))
  | classLiteral _ => inferInstanceAs (Decidable (_ = true))
  | stringLiteral _ | pop | returnVoid => inferInstanceAs (Decidable True)
  | constant item => inferInstanceAs (Decidable item.Valid)

end BodyStep

/-- The steps are valid, and the tables of lines and of handlers can be counted. -/
def ValidBody (steps : List BodyStep) : Prop :=
  (∀ s ∈ steps, s.Valid) ∧ steps.countP BodyStep.isLine < 65536 ∧
    steps.countP BodyStep.isGuard < 65536

instance : DecidablePred ValidBody := fun _ => inferInstanceAs (Decidable (_ ∧ _ ∧ _))

namespace ClassStep

def texts : ClassStep → List Text
  | constant item => item.texts
  | version _ => []
  | field _ name descriptor => [name, descriptor]
  | method _ name descriptor body =>
    name :: descriptor :: (body.getD []).flatMap BodyStep.texts

/-- The names and descriptors of the step can be read, and the name of a method and its descriptor are
told apart in its identity. -/
def Valid : ClassStep → Prop
  | constant item => item.Valid
  | version _ => True
  | field _ name descriptor => (Field.parse name descriptor).isOk
  | method _ name descriptor body =>
    Ascii.openParen ∉ name ∧ Ascii.dot ∉ descriptor ∧ (Method.parse descriptor name false).isOk ∧
      ValidBody (body.getD [])

instance : DecidablePred Valid
  | constant item => inferInstanceAs (Decidable item.Valid)
  | version _ => inferInstanceAs (Decidable True)
  | field _ name descriptor => inferInstanceAs (Decidable ((Field.parse name descriptor).isOk = true))
  | method .. => inferInstanceAs (Decidable (_ ∧ _ ∧ _ ∧ _))

end ClassStep

/-- The number of indices that an entry of a pool takes: those of eight octets take two. -/
def Assembler.entrySlots (entry : Bytes) : Nat :=
  if entry.head? = some 5 ∨ entry.head? = some 6 then 2 else 1

/-- The number of indices of the pool, index zero among them, in no fixed number of bits. -/
def Assembler.slotCount (a : Assembler) : Nat := (a.pool.map entrySlots).sum + 1

namespace ClassSource

def texts (s : ClassSource) : List Text :=
  s.name :: s.superName :: s.interfaces ++ s.steps.flatMap ClassStep.texts

/-- All names and descriptors can be read, all texts stand for themselves in a class file, no two
methods have the same name and descriptor, and every count, size, index, line and position fits in
sixteen bits. -/
structure Valid (s : ClassSource) : Prop where
  name : (ClassName.parse s.name).isOk
  superName : s.superName = [] ∨ (ClassName.parse s.superName).isOk
  interfaces : ∀ i ∈ s.interfaces, (ClassName.parse i).isOk
  steps : ∀ c ∈ s.steps, c.Valid
  plain : ∀ t ∈ s.texts, t.Plain
  distinct : (s.steps.filterMap ClassStep.signature?).Nodup
  interfaces_fit : s.interfaces.length < 65536
  fields_fit : (s.steps.filterMap ClassStep.field?).length < 65536
  methods_fit : s.methods.length < 65536
  code_fits : ∀ m ∈ s.methods, ∀ n ∈ m.size, n < 65536
  slots_fit : s.assemble.slotCount < 65536

end ClassSource

end JvmLinkage
