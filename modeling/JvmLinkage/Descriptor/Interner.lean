import JvmLinkage.Descriptor.Parser

/-!
# Tables of known descriptors

Reading the same descriptors again and again is avoided by three bounded tables: class names, field
types and methods. A table keeps what was used most recently. Whether a result comes from a table
or is read afresh makes no difference to anyone.
-/

namespace JvmLinkage

/-- A bounded table, most recently used entries first. -/
structure RecentTable (κ υ : Type) where
  capacity : Nat
  entries : List (κ × υ)
  deriving Repr

namespace RecentTable

variable {κ υ : Type} [DecidableEq κ]

/-- A table without entries. -/
def empty (capacity : Nat) : RecentTable κ υ := ⟨capacity, []⟩

/-- The value under a key. -/
def find? (t : RecentTable κ υ) (key : κ) : Option υ := t.entries.lookup key

/-- Marks an entry as used just now. -/
def touch (t : RecentTable κ υ) (key : κ) : RecentTable κ υ :=
  match t.find? key with
  | some value => { t with entries := (key, value) :: t.entries.filter (·.1 ≠ key) }
  | none => t

/-- Adds an entry unless there is one, and drops the least recently used beyond the capacity. -/
def insert (t : RecentTable κ υ) (key : κ) (value : υ) : RecentTable κ υ :=
  match t.find? key with
  | some _ => t
  | none => { t with entries := ((key, value) :: t.entries).take t.capacity }

end RecentTable

/-- What tells one request for a method from another. -/
structure MethodRequest where
  raw : Text
  name : Text
  static : Bool
  deriving DecidableEq, Repr

/-- The tables of known descriptors. -/
structure Interner where
  types : RecentTable Text FieldType
  classes : RecentTable Text ClassName
  methods : RecentTable MethodRequest Method

namespace Interner

/-- The capacity of each table unless another is asked for. -/
def defaultCapacity : Nat := 65536

/-- Empty tables; a capacity that is not positive stands for the default. -/
def ofCapacity (n : Int) : Interner :=
  let capacity := if n ≤ 0 then defaultCapacity else n.toNat
  ⟨.empty capacity, .empty capacity, .empty capacity⟩

/-- Reading with tables: a failure leaves the tables as the reading found and filled them. -/
abbrev Reading := ExceptT Malformed (StateM Interner)

variable {m : Type → Type} [Monad m] [MonadStateOf Interner m]

/-- Answers from a table, or reads and remembers the result. -/
def remember {κ υ : Type} [DecidableEq κ] (table : Interner → RecentTable κ υ)
    (update : RecentTable κ υ → Interner → Interner) (key : κ) (read : ExceptT Malformed m υ) :
    ExceptT Malformed m υ := do
  match (table (← getThe Interner)).find? key with
  | some value =>
    modifyThe Interner fun s => update ((table s).touch key) s
    return value
  | none =>
    let value ← read
    let known := (table (← getThe Interner)).find? key
    modifyThe Interner fun s => update ((table s).insert key value) s
    return known.getD value

/-- Reads the name of a class. -/
def className (name : Text) : ExceptT Malformed m ClassName :=
  remember (·.classes) (fun t s => { s with classes := t }) name
    (ExceptT.mk (pure (ClassName.parse name)))

/-- Reads a field type. -/
def fieldType (raw : Text) : ExceptT Malformed m FieldType :=
  remember (·.types) (fun t s => { s with types := t }) raw (FieldType.parseWith className raw)

/-- Reads a method. -/
def method (raw name : Text) (static : Bool) : ExceptT Malformed m Method :=
  remember (·.methods) (fun t s => { s with methods := t }) ⟨raw, name, static⟩
    (Method.parseWith fieldType raw name static)

/-- Reads a field, which has no table of its own. -/
def field (name rawType : Text) : ExceptT Malformed m Field :=
  Field.parseWith fieldType name rawType

end Interner

/-- A monad in which descriptors can be read. -/
class DescriptorSource (m : Type → Type) where
  className : Text → ExceptT Malformed m ClassName
  fieldType : Text → ExceptT Malformed m FieldType
  method : Text → Text → Bool → ExceptT Malformed m Method
  field : Text → Text → ExceptT Malformed m Field

instance : DescriptorSource Id where
  className name := ExceptT.mk (ClassName.parse name)
  fieldType raw := ExceptT.mk (FieldType.parse raw)
  method raw name static := ExceptT.mk (Method.parse raw name static)
  field name rawType := ExceptT.mk (Field.parse name rawType)

instance : DescriptorSource (StateM Interner) where
  className := Interner.className
  fieldType := Interner.fieldType
  method := Interner.method
  field := Interner.field

end JvmLinkage
