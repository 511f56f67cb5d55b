import JvmLinkage.ClassFile.Parser
import JvmLinkage.Descriptor.Interner
import JvmLinkage.Declared.Basic
import JvmLinkage.Instruction

/-!
# Declared classes of class files

Method bodies are walked once. Every invocation, field access and class literal becomes a
reference, with the source line in force and the exceptions caught around it.
-/

namespace JvmLinkage

/-- A failure to decode a class, with the names of class and method as far as they are known. -/
structure DecodeFailure where
  className : Text
  method : Text
  fault : Fault
  deriving DecidableEq, Repr

/-- The message of a failure. -/
def DecodeFailure.message (f : DecodeFailure) : Text :=
  let subject : Text :=
    if f.className.isEmpty then "classfile"
    else if f.method.isEmpty then "class " ++ f.className
    else "class " ++ f.className ++ ", method " ++ f.method
  "failed to decode " ++ subject ++ ": " ++ f.fault.message

namespace Decoder

variable {m : Type → Type} [Monad m] [DescriptorSource m]

/-- Reads a descriptor and places a failure to do so. -/
def descriptor {α : Type} (places : List Place) (read : ExceptT Malformed m α) :
    ExceptT Fault m α :=
  ExceptT.mk do
    match ← read.run with
    | .ok a => return .ok a
    | .error e => return .error ⟨places, .descriptor e⟩

/-- Looks something up in the constant pool and places a failure to do so. -/
def constant {α : Type} (places : List Place) (r : Except Fault α) : ExceptT Fault m α :=
  match r with
  | .ok a => pure a
  | .error f => throw { f with places := places ++ f.places }

/-- Owners whose methods take any signature, so that no declaration ever matches. -/
def anySignatureOwners : List Text :=
  ["java/lang/invoke/MethodHandle", "java/lang/invoke/VarHandle"]

/-- Whether a class constant names an array type. -/
def isArrayName (name : Text) : Bool := name.startsWith "["

/-- The line that starts at an instruction; of several entries the last counts. -/
def lineAt? (lines : List LineEntry) (pc : Nat) : Option Int :=
  ((lines.filter fun e => e.start.toNat = pc).getLast?).map fun e => e.line.toNat

/-- What a walk has collected, and the source line in force. -/
structure Evidence where
  line : Int := 0
  calls : List Call := []
  accesses : List Access := []
  loads : List ClassName := []

/-- The exceptions caught around an instruction, in order of their names. -/
def caughtAt (handlers : List ExceptionHandler) (pc : Nat) : ExceptT Fault m (List ClassName) := do
  let guards := handlers.filter fun h => !h.catchType.isEmpty && h.protects pc
  let caught ← guards.mapM fun h =>
    descriptor [.part "catch type"] (DescriptorSource.className h.catchType)
  return sortCaught caught

/-- The call of an invocation, unless no declaration could ever match it. -/
def call? (pool : ConstantPool) (handlers : List ExceptionHandler) (line : Int) (i : Instruction) :
    ExceptT Fault m (Option Call) := do
  let here := [Place.site "invoke" i.pc]
  let ref ← constant here (pool.memberRef i.index2)
  if isArrayName ref.owner || anySignatureOwners.contains ref.owner then return none
  let owner ← descriptor here (DescriptorSource.className ref.owner)
  let method ← descriptor here
    (DescriptorSource.method ref.descriptor ref.name (i.opcode = Opcode.invokeStatic))
  let caught ← caughtAt handlers i.pc
  return some ⟨owner, method, line, caught⟩

/-- The access of a field instruction, unless an array is its owner. -/
def access? (pool : ConstantPool) (handlers : List ExceptionHandler) (line : Int)
    (i : Instruction) : ExceptT Fault m (Option Access) := do
  let here := [Place.site "field access" i.pc]
  let ref ← constant here (pool.memberRef i.index2)
  if isArrayName ref.owner then return none
  let owner ← descriptor here (DescriptorSource.className ref.owner)
  let field ← descriptor here (DescriptorSource.field ref.name ref.descriptor)
  let caught ← caughtAt handlers i.pc
  let static := i.opcode = Opcode.getStatic || i.opcode = Opcode.putStatic
  return some ⟨owner, field, static, line, caught⟩

/-- The class of a class literal; a literal of an array of primitives has none. -/
def load? (pool : ConstantPool) (index : UInt16) : ExceptT Fault m (Option ClassName) := do
  let here := [Place.part "ldc"]
  match ← constant here (pool.get index) with
  | .classRef nameIndex =>
    let name ← constant here (pool.utf8 nameIndex)
    if isArrayName name then
      match ← descriptor here (DescriptorSource.fieldType name) with
      | .array (.reference c) _ => return some c
      | _ => return none
    else some <$> descriptor here (DescriptorSource.className name)
  | _ => return none

/-- Collects what one instruction refers to. -/
def visit (pool : ConstantPool) (code : Code) (e : Evidence) (i : Instruction) :
    ExceptT Fault m Evidence := do
  let line := (lineAt? code.lines i.pc).getD e.line
  let e := { e with line }
  let op := i.opcode
  if op = Opcode.invokeVirtual || op = Opcode.invokeSpecial || op = Opcode.invokeStatic
      || op = Opcode.invokeInterface then
    let call ← call? pool code.handlers line i
    return { e with calls := e.calls ++ call.toList }
  else if op = Opcode.getStatic || op = Opcode.putStatic || op = Opcode.getField
      || op = Opcode.putField then
    let access ← access? pool code.handlers line i
    return { e with accesses := e.accesses ++ access.toList }
  else if op = Opcode.ldc then
    let load ← load? pool i.index1
    return { e with loads := e.loads ++ load.toList }
  else if op = Opcode.ldcWide then
    let load ← load? pool i.index2
    return { e with loads := e.loads ++ load.toList }
  else return e

/-- Collects what a method body refers to. -/
def collect (pool : ConstantPool) (code : Code) : ExceptT Fault m Evidence := do
  let (instructions, ended) := Instruction.walk code.code
  let e ← instructions.foldlM (visit pool code) {}
  match ended with
  | none => return e
  | some cause => throw (.ofCause cause)

/-- Decodes a method; the classes that its body loads come with it. -/
def decodeMethod (pool : ConstantPool) (member : Member) :
    ExceptT Fault m (DeclaredMethod × List ClassName) := do
  let method ←
    if member.name = Method.classInit.name && member.descriptor = Method.classInit.raw then
      pure Method.classInit
    else
      descriptor [] (DescriptorSource.method member.descriptor member.name member.isStatic)
  match member.code with
  | none => return (⟨method, 0, [], []⟩, [])
  | some code =>
    let e ← collect pool code
    return (⟨method, e.line, e.calls, e.accesses⟩, e.loads)

/-- Decodes a method and adds it to the class. -/
def addMethod (pool : ConstantPool) (b : ClassBuilder) (member : Member) :
    ExceptT Fault m ClassBuilder := do
  let (declared, loads) ← decodeMethod pool member
  match (b.addLoads loads).addMethod? declared with
  | some b => return b
  | none => throw (.ofCause (.duplicateMethod declared.method b.name))

/-- Attributes a fault to a class and a method. -/
def attributed {α : Type} (file : ClassFile) (method : Text) (r : ExceptT Fault m α) :
    ExceptT DecodeFailure m α :=
  ExceptT.adapt (fun fault => ⟨file.thisClass.replace Ascii.slash Ascii.dot, method, fault⟩) r

/-- The declared class of a class file. -/
def decodeClassFile (file : ClassFile) : ExceptT DecodeFailure m DeclaredClass := do
  let b ← attributed file [] do
    let name ← descriptor [] (DescriptorSource.className file.thisClass)
    let superClass ←
      if file.superClass.isEmpty then pure []
      else
        let c ← descriptor [.part "super class"] (DescriptorSource.className file.superClass)
        pure [c]
    let interfaces ← file.interfaces.mapM fun i =>
      descriptor [.part "interface"] (DescriptorSource.className i)
    let fields ← file.fields.mapM fun f =>
      descriptor [] (DescriptorSource.field f.name f.descriptor)
    return ((ClassBuilder.start name).addParents (superClass ++ interfaces)).addFields fields
  let b ← file.methods.foldlM (fun b member =>
    attributed file (member.name ++ member.descriptor) (addMethod file.pool b member)) b
  return b.build

/-- What a failure to read a class file says about class and method. -/
def ofClassFileFailure (f : ClassFileFailure) : DecodeFailure where
  className := (f.thisClass.getD []).replace Ascii.slash Ascii.dot
  method := match f.member with
    | some member => if member.isMethod then member.name ++ member.descriptor else []
    | none => []
  fault := f.fault

/-- The declared class of the octets of a class file. -/
def decode (data : Bytes) : ExceptT DecodeFailure m DeclaredClass :=
  match ClassFile.parse data with
  | .ok file => decodeClassFile file
  | .error f => throw (ofClassFileFailure f)

end Decoder

/-- The declared class of the octets of a class file. -/
def DeclaredClass.decode (data : Bytes) : Except DecodeFailure DeclaredClass :=
  Id.run (Decoder.decode data).run

/-- Decodes class files one after the other with the same tables of descriptors. -/
def DeclaredClass.decodeAll (interner : Interner) (files : List Bytes) :
    List (Except DecodeFailure DeclaredClass) :=
  ((files.mapM fun data => (Decoder.decode (m := StateM Interner) data).run).run interner).1

end JvmLinkage
