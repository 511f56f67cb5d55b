import JvmLinkage.ClassFile.Parser
import JvmLinkage.Proofs.ClassFile.Reads
import JvmLinkage.Proofs.Text.ModifiedUtf8

/-!
# Class files as written

A layout is a class file before its names are resolved: numbers, indices into the pool and tables of
further parts, each part no larger than its count or length can say. Every layout has octets. If all
indices that matter lead to constants of the right kind, it also has a class file.
-/

namespace JvmLinkage

open Text.ModifiedUtf8 (encodeUnits textOfUnits)

/-- Items of which there are few enough to be counted in sixteen bits. -/
structure CountedList (α : Type) where
  items : List α
  fits : items.length < 65536 := by decide

/-- The number of items, followed by the octets of each. -/
def CountedList.octets {α : Type} (octetsOf : α → Bytes) (l : CountedList α) : Bytes :=
  Assembler.counted (l.items.map octetsOf)

/-! ## Constants -/

/-- The octets of the numbers that a constant holds, in order. -/
def Constant.numbers : Constant → Bytes
  | utf8 _ => []
  | integer bits | float bits => u4Bytes bits
  | long bits | double bits => u8Bytes bits
  | classRef index | string index | methodType index | moduleRef index | packageRef index =>
    u2Bytes index
  | fieldRef i j | methodRef i j | interfaceMethodRef i j | nameAndType i j | dynamic i j
  | invokeDynamic i j => u2Bytes i ++ u2Bytes j
  | methodHandle kind reference => kind :: u2Bytes reference

/-- The octet that announces a constant. -/
def Constant.mark : Constant → UInt8
  | utf8 _ => 1
  | integer _ => 3
  | float _ => 4
  | long _ => 5
  | double _ => 6
  | classRef _ => 7
  | string _ => 8
  | fieldRef .. => 9
  | methodRef .. => 10
  | interfaceMethodRef .. => 11
  | nameAndType .. => 12
  | methodHandle .. => 15
  | methodType _ => 16
  | dynamic .. => 17
  | invokeDynamic .. => 18
  | moduleRef _ => 19
  | packageRef _ => 20

/-- A constant as written: a text in code units, or a constant that holds numbers only. -/
inductive ConstantLayout where
  | text (units : List UInt16) (fits : (encodeUnits units).length < 65536)
  | numeric (constant : Constant) (not_text : constant.tag ≠ .utf8)

namespace ConstantLayout

/-- The constant that is written. -/
def value : ConstantLayout → Constant
  | text units _ => .utf8 (textOfUnits units)
  | numeric constant _ => constant

/-- The octet that announces the constant, and the octets after it. -/
def octets : ConstantLayout → Bytes
  | text units _ =>
    1 :: (u2Bytes (encodeUnits units).length.toUInt16 ++ encodeUnits units)
  | numeric constant _ => constant.mark :: constant.numbers

/-- The number of indices that the constant takes. -/
def width (c : ConstantLayout) : Nat := if c.value.isWide then 2 else 1

/-- What the indices of the constant hold. -/
def slots (c : ConstantLayout) : List (Option Constant) :=
  if c.value.isWide then [some c.value, none] else [some c.value]

/-- Whether the constants are as many as it takes to fill `n` indices. The second index of a wide
constant at the end may be missing. -/
def Fills : List ConstantLayout → Nat → Prop
  | [], n => n = 0
  | c :: cs, n => 0 < n ∧ Fills cs (n - c.width)

instance decidableFills : (cs : List ConstantLayout) → (n : Nat) → Decidable (Fills cs n)
  | [], n => inferInstanceAs (Decidable (n = 0))
  | c :: cs, n =>
    have := decidableFills cs (n - c.width)
    inferInstanceAs (Decidable (0 < n ∧ Fills cs (n - c.width)))

/-- The constant that starts at a position, which counts from zero. -/
def startingAt? : List ConstantLayout → Nat → Option Constant
  | [], _ => none
  | c :: _, 0 => some c.value
  | c :: cs, n + 1 => if n + 1 < c.width then none else startingAt? cs (n + 1 - c.width)

end ConstantLayout

/-- A constant pool as written. The count is that of the indices, index zero among them. -/
structure PoolLayout where
  count : UInt16
  constants : List ConstantLayout
  fills : ConstantLayout.Fills constants (count.toNat - 1)

namespace PoolLayout

def octets (p : PoolLayout) : Bytes := u2Bytes p.count ++ p.constants.flatMap ConstantLayout.octets

def pool (p : PoolLayout) : ConstantPool :=
  ⟨((none :: p.constants.flatMap ConstantLayout.slots).take p.count.toNat).toArray⟩

def constant? (p : PoolLayout) (index : UInt16) : Option Constant :=
  if index = 0 then none else ConstantLayout.startingAt? p.constants (index.toNat - 1)

def text? (p : PoolLayout) (index : UInt16) : Option Text :=
  match p.constant? index with
  | some (.utf8 text) => some text
  | _ => none

def className? (p : PoolLayout) (index : UInt16) : Option Text :=
  match p.constant? index with
  | some (.classRef name) => p.text? name
  | _ => none

/-- The text at an index that holds one. -/
def text (p : PoolLayout) (index : UInt16) : Text := (p.text? index).getD []

/-- The name of the class at an index that holds one; index zero stands for no class. -/
def className (p : PoolLayout) (index : UInt16) : Text :=
  if index = 0 then [] else (p.className? index).getD []

/-- Whether an index leads to a text. -/
def HasText (p : PoolLayout) (index : UInt16) : Prop := (p.text? index).isSome

/-- Whether an index leads to a class with a name. -/
def HasClass (p : PoolLayout) (index : UInt16) : Prop := (p.className? index).isSome

instance (p : PoolLayout) (index : UInt16) : Decidable (p.HasText index) :=
  inferInstanceAs (Decidable (_ = true))

instance (p : PoolLayout) (index : UInt16) : Decidable (p.HasClass index) :=
  inferInstanceAs (Decidable (_ = true))

end PoolLayout

/-! ## Attributes and method bodies -/

structure AttributeLayout where
  name : UInt16
  content : Bytes
  fits : content.length < 4294967296 := by decide

def AttributeLayout.octets (a : AttributeLayout) : Bytes :=
  u2Bytes a.name ++ u4Bytes a.content.length.toUInt32 ++ a.content

def LineEntry.octets (l : LineEntry) : Bytes := u2Bytes l.start ++ u2Bytes l.line

theorem LineEntry.length_table_lt (l : CountedList LineEntry) :
    (l.octets octets).length < 4294967296 := by
  have hitems : (l.items.map octets).flatten.length = l.items.length * 4 := by
    simp [Function.comp_def, octets, u2Bytes, List.map_const']
  have hfits := l.fits
  rw [CountedList.octets, Assembler.counted, List.length_append, hitems, u2Bytes,
    Bytes.length_ofNat]
  omega

/-- An attribute of a method body as written: a table of source lines, or anything else. -/
inductive CodeAttributeLayout where
  | lines (name : UInt16) (entries : CountedList LineEntry)
  | other (a : AttributeLayout)

namespace CodeAttributeLayout

/-- The attribute with its content in octets. -/
def plain : CodeAttributeLayout → AttributeLayout
  | lines name entries =>
    ⟨name, entries.octets LineEntry.octets, LineEntry.length_table_lt entries⟩
  | other a => a

def entries : CodeAttributeLayout → List LineEntry
  | lines _ entries => entries.items
  | other _ => []

/-- Whether the name of the attribute resolves, and tells what the attribute holds. -/
def Resolves (p : PoolLayout) : CodeAttributeLayout → Prop
  | lines name _ => p.text? name = some Code.linesName
  | other a => p.HasText a.name ∧ p.text? a.name ≠ some Code.linesName

instance (p : PoolLayout) : DecidablePred (Resolves p)
  | lines name _ => inferInstanceAs (Decidable (p.text? name = some Code.linesName))
  | other a =>
    inferInstanceAs (Decidable (p.HasText a.name ∧ p.text? a.name ≠ some Code.linesName))

end CodeAttributeLayout

/-- A handler as written. The index of the catch type is zero for a handler of every exception. -/
structure HandlerLayout where
  start : UInt16
  stop : UInt16
  handler : UInt16
  catchType : UInt16

namespace HandlerLayout

def octets (h : HandlerLayout) : Bytes :=
  u2Bytes h.start ++ u2Bytes h.stop ++ u2Bytes h.handler ++ u2Bytes h.catchType

/-- Whether the catch type, if there is one, resolves. -/
def Resolves (p : PoolLayout) (h : HandlerLayout) : Prop :=
  h.catchType ≠ 0 → p.HasClass h.catchType

instance (p : PoolLayout) : DecidablePred (Resolves p) := fun h =>
  inferInstanceAs (Decidable (h.catchType ≠ 0 → p.HasClass h.catchType))

def value (p : PoolLayout) (h : HandlerLayout) : ExceptionHandler :=
  ⟨h.start, h.stop, h.handler, p.className h.catchType⟩

end HandlerLayout

structure CodeLayout where
  maxStack : UInt16
  maxLocals : UInt16
  code : Bytes
  fits : code.length < 4294967296 := by decide
  handlers : CountedList HandlerLayout
  attributes : CountedList CodeAttributeLayout

namespace CodeLayout

def octets (c : CodeLayout) : Bytes :=
  u2Bytes c.maxStack ++ u2Bytes c.maxLocals ++ u4Bytes c.code.length.toUInt32 ++ c.code
    ++ c.handlers.octets HandlerLayout.octets
    ++ c.attributes.octets (AttributeLayout.octets ∘ CodeAttributeLayout.plain)

def Resolves (p : PoolLayout) (c : CodeLayout) : Prop :=
  (∀ h ∈ c.handlers.items, h.Resolves p) ∧ ∀ a ∈ c.attributes.items, a.Resolves p

instance (p : PoolLayout) : DecidablePred (Resolves p) := fun _ =>
  inferInstanceAs (Decidable (_ ∧ _))

/-- The body with its names resolved. The source lines of all tables count. -/
def value (p : PoolLayout) (c : CodeLayout) : Code where
  maxStack := c.maxStack
  maxLocals := c.maxLocals
  code := c.code
  handlers := c.handlers.items.map (HandlerLayout.value p)
  lines := c.attributes.items.flatMap CodeAttributeLayout.entries

end CodeLayout

/-! ## Fields and methods -/

/-- An attribute of a member as written: a method body, or anything else. -/
inductive MemberAttributeLayout where
  | body (name : UInt16) (code : CodeLayout) (fits : code.octets.length < 4294967296)
  | other (a : AttributeLayout)

namespace MemberAttributeLayout

/-- The attribute with its content in octets. -/
def plain : MemberAttributeLayout → AttributeLayout
  | body name code fits => ⟨name, code.octets, fits⟩
  | other a => a

/-- Whether the names in the attribute resolve. Those in a body, and the name that announces it,
matter for methods only. -/
def Resolves (p : PoolLayout) (isMethod : Bool) : MemberAttributeLayout → Prop
  | body name code _ =>
    if isMethod then p.text? name = some Code.attributeName ∧ code.Resolves p else p.HasText name
  | other a => p.HasText a.name ∧ (isMethod → p.text? a.name ≠ some Code.attributeName)

instance (p : PoolLayout) (isMethod : Bool) : DecidablePred (Resolves p isMethod)
  | body name code _ => inferInstanceAs (Decidable (if isMethod then
      p.text? name = some Code.attributeName ∧ code.Resolves p else p.HasText name))
  | other a => inferInstanceAs (Decidable
      (p.HasText a.name ∧ (isMethod → p.text? a.name ≠ some Code.attributeName)))

/-- The method body that the attribute holds. -/
def code? (p : PoolLayout) (isMethod : Bool) : MemberAttributeLayout → Option Code
  | body _ code _ => if isMethod then some (code.value p) else none
  | other _ => none

end MemberAttributeLayout

structure MemberLayout where
  access : UInt16
  name : UInt16
  descriptor : UInt16
  attributes : CountedList MemberAttributeLayout

namespace MemberLayout

def octets (m : MemberLayout) : Bytes :=
  u2Bytes m.access ++ u2Bytes m.name ++ u2Bytes m.descriptor
    ++ m.attributes.octets (AttributeLayout.octets ∘ MemberAttributeLayout.plain)

def Resolves (p : PoolLayout) (isMethod : Bool) (m : MemberLayout) : Prop :=
  p.HasText m.name ∧ p.HasText m.descriptor ∧ ∀ a ∈ m.attributes.items, a.Resolves p isMethod

instance (p : PoolLayout) (isMethod : Bool) : DecidablePred (Resolves p isMethod) := fun _ =>
  inferInstanceAs (Decidable (_ ∧ _ ∧ _))

/-- The member with its names resolved. The last of several bodies counts. -/
def value (p : PoolLayout) (isMethod : Bool) (m : MemberLayout) : Member where
  access := m.access
  name := p.text m.name
  descriptor := p.text m.descriptor
  code := (m.attributes.items.filterMap (MemberAttributeLayout.code? p isMethod)).getLast?

end MemberLayout

/-! ## Whole class files -/

/-- A class file as written. The index of the super class is zero for a class without one. -/
structure ClassLayout where
  minor : UInt16
  major : UInt16
  pool : PoolLayout
  access : UInt16
  thisClass : UInt16
  superClass : UInt16
  interfaces : CountedList UInt16
  fields : CountedList MemberLayout
  methods : CountedList MemberLayout
  attributes : CountedList AttributeLayout

namespace ClassLayout

def octets (f : ClassLayout) : Bytes :=
  u4Bytes 0xCAFEBABE ++ u2Bytes f.minor ++ u2Bytes f.major ++ f.pool.octets
    ++ u2Bytes f.access ++ u2Bytes f.thisClass ++ u2Bytes f.superClass
    ++ f.interfaces.octets u2Bytes ++ f.fields.octets MemberLayout.octets
    ++ f.methods.octets MemberLayout.octets ++ f.attributes.octets AttributeLayout.octets

/-- Whether every name that matters resolves. Those of the attributes of the class do not. -/
structure Resolves (f : ClassLayout) : Prop where
  thisClass : f.pool.HasClass f.thisClass
  superClass : f.superClass ≠ 0 → f.pool.HasClass f.superClass
  interfaces : ∀ i ∈ f.interfaces.items, f.pool.HasClass i
  fields : ∀ m ∈ f.fields.items, m.Resolves f.pool false
  methods : ∀ m ∈ f.methods.items, m.Resolves f.pool true

def classFile (f : ClassLayout) : ClassFile where
  minor := f.minor
  major := f.major
  pool := f.pool.pool
  access := f.access
  thisClass := f.pool.className f.thisClass
  superClass := f.pool.className f.superClass
  interfaces := f.interfaces.items.map f.pool.className
  fields := f.fields.items.map (MemberLayout.value f.pool false)
  methods := f.methods.items.map (MemberLayout.value f.pool true)

end ClassLayout

end JvmLinkage
