import JvmLinkage.ClassFile.Basic

/-!
# Reading class files

Class files are read from front to back. Attributes other than method bodies and their line tables
are passed over.
-/

namespace JvmLinkage

open Reader

/-! ## Attributes and method bodies -/

/-- Reads the name and the content of an attribute. -/
def readAttribute (pool : ConstantPool) : Reader Fault (Text × Bytes) := do
  let nameIndex ← within (.reading "attribute name") u2
  let name ← within (.resolving "attribute name") (given (pool.utf8 nameIndex))
  let length ← within (.reading ("length of " ++ name)) u4
  let body ← within (.reading ("body of " ++ name)) (bytes length.toNat)
  return (name, body)

/-- Passes over a list of attributes. -/
def skipAttributes : Reader Fault Unit := do
  let count ← u2
  let _ ← items count.toNat fun _ => do
    skip 2
    let length ← u4
    skip length.toNat

namespace ExceptionHandler

/-- Reads a handler. -/
def read (pool : ConstantPool) : Reader Fault ExceptionHandler := do
  let start ← u2
  let stop ← u2
  let handler ← u2
  let catchIndex ← u2
  let catchType ←
    if catchIndex = 0 then pure []
    else within (.resolving "catch type") (given (pool.className catchIndex))
  return ⟨start, stop, handler, catchType⟩

end ExceptionHandler

namespace LineEntry

/-- Reads a table of source lines. -/
def readTable : Reader Fault (List LineEntry) := do
  let count ← u2
  items count.toNat fun _ => do
    let start ← u2
    let line ← u2
    return ⟨start, line⟩

end LineEntry

namespace Code

/-- The name of the attribute that holds a method body. -/
def attributeName : Text := "Code"

/-- The name of the attribute that holds a table of source lines. -/
def linesName : Text := "LineNumberTable"

/-- Reads an attribute of a method body, which holds source lines or nothing of interest. -/
def readLines (pool : ConstantPool) (index : Nat) : Reader Fault (List LineEntry) := do
  let (name, body) ← within (.item "code attribute" index) (readAttribute pool)
  if name = linesName then
    within (.parsing linesName) (given ((LineEntry.readTable.run (.start body)).map (·.1)))
  else return []

/-- Reads a method body. -/
def read (pool : ConstantPool) : Reader Fault Code := do
  let maxStack ← within (.reading "max_stack") u2
  let maxLocals ← within (.reading "max_locals") u2
  let length ← within (.reading "code_length") u4
  let code ← within (.reading "code") (bytes length.toNat)
  let handlerCount ← within (.reading "exception table length") u2
  let handlers ← items handlerCount.toNat fun i =>
    within (.item "exception handler" i) (ExceptionHandler.read pool)
  let attributeCount ← within (.reading "code attributes count") u2
  let lines ← items attributeCount.toNat (readLines pool)
  return ⟨maxStack, maxLocals, code, handlers, lines.flatten⟩

end Code

/-! ## Fields and methods -/

namespace Member

/-- Reads an attribute of a member, which for methods may be a body. -/
def readCode (pool : ConstantPool) (isMethod : Bool) (name descriptor : Text) (index : Nat) :
    Reader Fault (Option Code) := do
  let (kind, body) ← within (.attributeOf index name) (readAttribute pool)
  if isMethod && kind = Code.attributeName then
    within (.parsing ("Code of " ++ name ++ descriptor))
      (given (((Code.read pool).run (.start body)).map fun r => some r.1))
  else return none

/-- Reads a member. A failure comes with the name and type read before it. The last of several
bodies counts. -/
def read (pool : ConstantPool) (isMethod : Bool) : Reader (Text × Text × Fault) Member := do
  let access ← mapError (([], [], ·)) (within (.reading "access flags") u2)
  let name ← mapError (([], [], ·)) do
    let index ← within (.reading "name index") u2
    within (.resolving "name") (given (pool.utf8 index))
  let descriptor ← mapError ((name, [], ·)) do
    let index ← within (.reading "descriptor index") u2
    within (.resolving ("descriptor of " ++ name)) (given (pool.utf8 index))
  let codes ← mapError ((name, descriptor, ·)) do
    let count ← within (.reading ("attributes count of " ++ name)) u2
    items count.toNat (readCode pool isMethod name descriptor)
  return ⟨access, name, descriptor, (codes.filterMap id).getLast?⟩

/-- Reads a member, known by its index. -/
def readAt (pool : ConstantPool) (isMethod : Bool) (index : Nat) : Reader MemberFailure Member :=
  mapError (fun (name, descriptor, fault) =>
    ⟨name, descriptor, isMethod, fault.placed (.item "member" index)⟩) (read pool isMethod)

end Member

/-! ## Whole class files -/

namespace ClassFile

/-- The number at the start of every class file. -/
def magic : UInt32 := 0xCAFEBABE

/-- Reads the header: major and minor version. -/
def readVersion : Reader Fault (UInt16 × UInt16) := do
  let found ← within (.reading "magic") u4
  if found ≠ magic then throw (.ofCause (.badMagic found))
  let minor ← within (.reading "minor version") u2
  let major ← within (.reading "major version") u2
  return (major, minor)

/-- The major and minor version of a class file, from its header alone. -/
def peekVersion (data : Bytes) : Except Fault (UInt16 × UInt16) :=
  (readVersion.run (.start data)).map (·.1)

/-- Reads the fields or the methods. -/
def readMembers (pool : ConstantPool) (isMethod : Bool) (thisClass what : Text) :
    Reader ClassFileFailure (List Member) := do
  let count ← mapError (⟨some thisClass, none, ·⟩)
    (within (.parsing what) (within (.reading "count") u2))
  mapError (fun member => ⟨some thisClass, some member, member.fault.placed (.parsing what)⟩)
    (items count.toNat (Member.readAt pool isMethod))

/-- Reads an interface, known by its index. -/
def readInterface (pool : ConstantPool) (index : Nat) : Reader Fault Text := do
  let i ← within (.reading ("interface " ++ Text.ofNat index)) u2
  within (.resolving ("interface " ++ Text.ofNat index)) (given (pool.className i))

/-- Reads a class file. -/
def read : Reader ClassFileFailure ClassFile := do
  let (major, minor, pool, access, thisClass) ← mapError (⟨none, none, ·⟩) do
    let (major, minor) ← readVersion
    let pool ← within (.parsing "constant pool") ConstantPool.read
    let access ← within (.reading "access flags") u2
    let thisIndex ← within (.reading "this_class") u2
    let thisClass ← within (.resolving "this_class") (given (pool.className thisIndex))
    return (major, minor, pool, access, thisClass)
  let (superClass, interfaces) ← mapError (⟨some thisClass, none, ·⟩) do
    let superIndex ← within (.reading "super_class") u2
    let superClass ←
      if superIndex = 0 then pure []
      else within (.resolving "super_class") (given (pool.className superIndex))
    let count ← within (.reading "interfaces count") u2
    let interfaces ← items count.toNat (readInterface pool)
    return (superClass, interfaces)
  let fields ← readMembers pool false thisClass "fields"
  let methods ← readMembers pool true thisClass "methods"
  mapError (⟨some thisClass, none, ·⟩) (within (.parsing "class attributes") skipAttributes)
  return { minor, major, pool, access, thisClass, superClass, interfaces, fields, methods }

/-- Reads the class file at the start of `data`; what follows it is ignored. -/
def parse (data : Bytes) : Except ClassFileFailure ClassFile := (read.run (.start data)).map (·.1)

end ClassFile

end JvmLinkage
