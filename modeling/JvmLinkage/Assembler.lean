import JvmLinkage.ClassFile.Basic
import JvmLinkage.Instruction
import JvmLinkage.Text.Decimal

/-!
# Assembling class files

Small class files are put together from names and method bodies. Constants are entered into the pool
as they are needed, each under a label, and a label already known gives the index it had before.
Counts and indices are kept in sixteen bits. The octets that announce constants and instructions are
written out here, apart from the tables that reading goes by.
-/

namespace JvmLinkage

/-- The two octets of a number of sixteen bits. -/
def u2Bytes (n : UInt16) : Bytes := Bytes.ofNat 2 n.toNat

/-- The four octets of a number of thirty-two bits. -/
def u4Bytes (n : UInt32) : Bytes := Bytes.ofNat 4 n.toNat

/-- The eight octets of a number of sixty-four bits. -/
def u8Bytes (n : UInt64) : Bytes := Bytes.ofNat 8 n.toNat

/-- A class file under construction. -/
structure Assembler where
  major : UInt16 := 52
  access : UInt16 := 0x0001
  pool : List Bytes := []
  slots : UInt16 := 1
  labels : List (Text × UInt16) := []
  thisClass : UInt16 := 0
  superClass : UInt16 := 0
  interfaces : List UInt16 := []
  fields : List Bytes := []
  methods : List Bytes := []

/-- What a reference in the pool leads to. -/
inductive MemberKind where
  | field
  | method
  | interfaceMethod
  deriving DecidableEq, Repr

/-- The octet that announces a reference. -/
def MemberKind.octet : MemberKind → UInt8
  | field => 9
  | method => 10
  | interfaceMethod => 11

/-- A constant by the texts and numbers that it is entered with. -/
inductive PoolItem where
  | utf8 (s : Text)
  | classRef (name : Text)
  | string (s : Text)
  | integer (n : Int32)
  | long (n : Int64)
  | nameAndType (name descriptor : Text)
  | memberRef (kind : MemberKind) (owner name descriptor : Text)
  deriving DecidableEq, Repr

/-- The label that a constant is entered under. -/
def PoolItem.label : PoolItem → Text
  | utf8 s => "utf8:" ++ s
  | classRef name => "class:" ++ name
  | string s => "string:" ++ s
  | integer n => "int:" ++ Text.ofInt n.toInt
  | long n => "long:" ++ Text.ofInt n.toInt
  | nameAndType name descriptor => "nat:" ++ name ++ ":" ++ descriptor
  | memberRef kind owner name descriptor =>
    "ref" ++ Text.ofNat kind.octet.toNat ++ ":" ++ owner ++ "." ++ name ++ ":" ++ descriptor

/-- The instructions that call a method of a class. -/
inductive MethodUse where
  | virtual
  | special
  | static
  deriving DecidableEq, Repr

/-- The opcode that is written for a call. -/
def MethodUse.opcode : MethodUse → UInt8
  | virtual => 0xB6
  | special => 0xB7
  | static => 0xB8

/-- The instructions that use a field. -/
inductive FieldUse where
  | getStatic
  | putStatic
  | getField
  deriving DecidableEq, Repr

/-- The opcode that is written for the use of a field. -/
def FieldUse.opcode : FieldUse → UInt8
  | getStatic => 0xB2
  | putStatic => 0xB3
  | getField => 0xB4

/-- A line of a method body. -/
inductive BodyStep where
  | emit (opcode : UInt8) (operands : Bytes)
  | line (n : Int)
  | guarded (start stop target : Int) (catchType : Text)
  | invoke (use : MethodUse) (owner name descriptor : Text)
  | invokeInterface (owner name descriptor : Text) (slots : UInt8)
  | access (use : FieldUse) (owner name descriptor : Text)
  | classLiteral (name : Text)
  | stringLiteral (s : Text)
  | pop
  | returnVoid
  | constant (item : PoolItem)
  deriving DecidableEq, Repr

/-- A step in the assembly of a class, after its names. -/
inductive ClassStep where
  | constant (item : PoolItem)
  | version (major : UInt16)
  | field (access : UInt16) (name descriptor : Text)
  | method (access : UInt16) (name descriptor : Text) (body : Option (List BodyStep))
  deriving DecidableEq, Repr

/-- What a class is assembled from; its super class has the empty name if there is none. -/
structure ClassSource where
  name : Text
  superName : Text := []
  interfaces : List Text := []
  steps : List ClassStep := []
  deriving DecidableEq, Repr

/-- A method body under construction. -/
structure Body where
  code : Bytes := []
  handlers : List ExceptionHandler := []
  lines : List LineEntry := []

/-- The low sixteen bits of an integer. -/
def lowWord (n : Int) : UInt16 := (n % 65536).toNat.toUInt16

namespace Assembler

/-- A step that may enter constants. -/
abbrev Assembly := StateM Assembler

/-! ## Constants -/

/-- Enters a constant under a label, taking `slots` indices, unless the label is known. -/
def enter (label : Text) (slots : UInt16) (constant : Bytes) : Assembly UInt16 := do
  let a ← get
  match a.labels.lookup label with
  | some index => return index
  | none =>
    set { a with
      pool := a.pool ++ [constant]
      slots := a.slots + slots
      labels := (label, a.slots) :: a.labels }
    return a.slots

/-- Enters a text. -/
def utf8 (s : Text) : Assembly UInt16 :=
  enter (PoolItem.utf8 s).label 1 (1 :: u2Bytes s.length.toUInt16 ++ s)

/-- Enters a class. -/
def classRef (name : Text) : Assembly UInt16 := do
  let text ← utf8 name
  enter (PoolItem.classRef name).label 1 (7 :: u2Bytes text)

/-- Enters a class that may be missing; the empty name stands for none. -/
def optionalClass (name : Text) : Assembly UInt16 :=
  if name.isEmpty then return 0 else classRef name

/-- Enters a string. -/
def string (s : Text) : Assembly UInt16 := do
  let text ← utf8 s
  enter (PoolItem.string s).label 1 (8 :: u2Bytes text)

/-- Enters a number of thirty-two bits. -/
def integer (n : Int32) : Assembly UInt16 :=
  enter (PoolItem.integer n).label 1 (3 :: u4Bytes n.toUInt32)

/-- Enters a number of sixty-four bits, which takes two indices. -/
def long (n : Int64) : Assembly UInt16 :=
  enter (PoolItem.long n).label 2 (5 :: u8Bytes n.toUInt64)

/-- Enters a name with an encoded type. -/
def nameAndType (name descriptor : Text) : Assembly UInt16 := do
  let nameIndex ← utf8 name
  let descriptorIndex ← utf8 descriptor
  enter (PoolItem.nameAndType name descriptor).label 1
    (12 :: u2Bytes nameIndex ++ u2Bytes descriptorIndex)

/-- Enters a field or method reference. -/
def memberRef (kind : MemberKind) (owner name descriptor : Text) : Assembly UInt16 := do
  let ownerIndex ← classRef owner
  let signature ← nameAndType name descriptor
  enter (PoolItem.memberRef kind owner name descriptor).label 1
    (kind.octet :: u2Bytes ownerIndex ++ u2Bytes signature)

/-- Enters a constant of any kind. -/
def item : PoolItem → Assembly UInt16
  | .utf8 s => utf8 s
  | .classRef name => classRef name
  | .string s => string s
  | .integer n => integer n
  | .long n => long n
  | .nameAndType name descriptor => nameAndType name descriptor
  | .memberRef kind owner name descriptor => memberRef kind owner name descriptor

/-! ## Method bodies -/

/-- Appends an instruction. -/
def Body.push (b : Body) (opcode : UInt8) (operands : Bytes) : Body :=
  { b with code := b.code ++ opcode :: operands }

/-- Appends an instruction that loads the constant at an index, in the short form if it fits. -/
def Body.load (b : Body) (index : UInt16) : Body :=
  if index ≤ 0xFF then Body.push b 0x12 [index.toUInt8]
  else Body.push b 0x13 (u2Bytes index)

/-- Appends one line of a body. -/
def step (b : Body) : BodyStep → Assembly Body
  | .emit opcode operands => return Body.push b opcode operands
  | .line n => return { b with lines := b.lines ++ [⟨b.code.length.toUInt16, lowWord n⟩] }
  | .guarded start stop target catchType =>
    return { b with
      handlers := b.handlers ++ [⟨lowWord start, lowWord stop, lowWord target, catchType⟩] }
  | .invoke use owner name descriptor => do
    let index ← memberRef .method owner name descriptor
    return Body.push b use.opcode (u2Bytes index)
  | .invokeInterface owner name descriptor slots => do
    let index ← memberRef .interfaceMethod owner name descriptor
    return Body.push b 0xB9 (u2Bytes index ++ [slots + 1, 0])
  | .access use owner name descriptor => do
    let index ← memberRef .field owner name descriptor
    return Body.push b use.opcode (u2Bytes index)
  | .classLiteral name => do return Body.load b (← classRef name)
  | .stringLiteral s => do return Body.load b (← string s)
  | .pop => return Body.push b 0x57 []
  | .returnVoid => return Body.push b 0xB1 []
  | .constant c => do
    let _ ← item c
    return b

/-- Assembles a body from its steps, if there is one. -/
def body (steps : Option (List BodyStep)) : Assembly (Option Body) :=
  steps.mapM fun steps => steps.foldlM step {}

/-- The octets of a handler. -/
def handler (h : ExceptionHandler) : Assembly Bytes := do
  let catchIndex ← optionalClass h.catchType
  return u2Bytes h.start ++ u2Bytes h.stop ++ u2Bytes h.handler ++ u2Bytes catchIndex

/-- The octets of a table of source lines, as a list of one attribute, or of none. -/
def lineTable (lines : List LineEntry) : Assembly Bytes := do
  if lines.isEmpty then return u2Bytes 0
  let name ← utf8 "LineNumberTable"
  return u2Bytes 1 ++ u2Bytes name ++ u4Bytes (2 + 4 * lines.length).toUInt32
    ++ u2Bytes lines.length.toUInt16 ++ lines.flatMap fun e => u2Bytes e.start ++ u2Bytes e.line

/-- The content of the attribute of a body. -/
def bodyBytes (b : Body) : Assembly Bytes := do
  let handlers ← b.handlers.mapM handler
  let lines ← lineTable b.lines
  return u2Bytes 8 ++ u2Bytes 8 ++ u4Bytes b.code.length.toUInt32 ++ b.code
    ++ u2Bytes b.handlers.length.toUInt16 ++ handlers.flatten ++ lines

/-! ## Classes -/

/-- A public class; without a super class when its name is empty. -/
def start (name superName : Text) (interfaces : List Text) : Assembly Unit := do
  let thisClass ← classRef name
  let superClass ← optionalClass superName
  let interfaces ← interfaces.mapM classRef
  modify fun a => { a with thisClass, superClass, interfaces }

/-- Sets the version of the class file. -/
def version (major : UInt16) : Assembly Unit := modify fun a => { a with major }

/-- The octets at the start of a field or method. -/
def memberHead (access : UInt16) (name descriptor : Text) : Assembly Bytes := do
  let nameIndex ← utf8 name
  let descriptorIndex ← utf8 descriptor
  return u2Bytes access ++ u2Bytes nameIndex ++ u2Bytes descriptorIndex

/-- The octets of the attributes of a method, which hold its body if there is one. -/
def bodyAttributes : Option Body → Assembly Bytes
  | none => return u2Bytes 0
  | some b => do
    let content ← bodyBytes b
    let label ← utf8 "Code"
    return u2Bytes 1 ++ u2Bytes label ++ u4Bytes content.length.toUInt32 ++ content

/-- Adds a field. -/
def field (access : UInt16) (name descriptor : Text) : Assembly Unit := do
  let head ← memberHead access name descriptor
  modify fun a => { a with fields := a.fields ++ [head ++ u2Bytes 0] }

/-- Adds a method; the result is the size of its code, of which there may be none. -/
def method (access : UInt16) (name descriptor : Text) (steps : Option (List BodyStep)) :
    Assembly (Option Nat) := do
  let head ← memberHead access name descriptor
  let b ← body steps
  let attributes ← bodyAttributes b
  modify fun a => { a with methods := a.methods ++ [head ++ attributes] }
  return b.map fun b => b.code.length

/-- Does one step of a class. -/
def classStep : ClassStep → Assembly Unit
  | .constant c => do let _ ← item c
  | .version major => version major
  | .field access name descriptor => field access name descriptor
  | .method access name descriptor body => do let _ ← method access name descriptor body

/-- A table of entries after their number. -/
def counted (entries : List Bytes) : Bytes := u2Bytes entries.length.toUInt16 ++ entries.flatten

/-- The octets of the class file. -/
def bytes (a : Assembler) : Bytes :=
  u4Bytes 0xCAFEBABE ++ u2Bytes 0 ++ u2Bytes a.major ++ u2Bytes a.slots ++ a.pool.flatten
    ++ u2Bytes a.access ++ u2Bytes a.thisClass ++ u2Bytes a.superClass
    ++ counted (a.interfaces.map u2Bytes) ++ counted a.fields ++ counted a.methods ++ u2Bytes 0

end Assembler

/-- The class file under construction after all steps. -/
def ClassSource.assemble (s : ClassSource) : Assembler :=
  let steps : Assembler.Assembly Unit := do
    Assembler.start s.name s.superName s.interfaces
    s.steps.forM Assembler.classStep
  (steps.run {}).2

end JvmLinkage
