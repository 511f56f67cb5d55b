import JvmLinkage.ClassFile.ConstantPool

/-!
# Class files

The parts of a class file that matter for linking, with every name resolved.
-/

namespace JvmLinkage

/-- A handler that guards the instructions from `start` up to, and without, `stop`. The catch type
is empty for a handler of every exception. -/
structure ExceptionHandler where
  start : UInt16
  stop : UInt16
  handler : UInt16
  catchType : Text
  deriving DecidableEq, Repr

/-- Whether the handler guards the instruction at `pc`. -/
def ExceptionHandler.protects (h : ExceptionHandler) (pc : Int) : Bool :=
  h.start.toNat ≤ pc && pc < h.stop.toNat

/-- The source line that begins at an instruction. -/
structure LineEntry where
  start : UInt16
  line : UInt16
  deriving DecidableEq, Repr

/-- The body of a method. -/
structure Code where
  maxStack : UInt16
  maxLocals : UInt16
  code : Bytes
  handlers : List ExceptionHandler
  lines : List LineEntry
  deriving DecidableEq, Repr

/-- A field or a method of a class file. Only methods have code. -/
structure Member where
  access : UInt16
  name : Text
  descriptor : Text
  code : Option Code
  deriving DecidableEq, Repr

/-- Whether the member belongs to the class and not to its instances. -/
def Member.isStatic (m : Member) : Bool := m.access &&& 0x0008 ≠ 0

/-- A class file with its names resolved. A class without a super class has the empty name there. -/
structure ClassFile where
  minor : UInt16
  major : UInt16
  pool : ConstantPool
  access : UInt16
  thisClass : Text
  superClass : Text
  interfaces : List Text
  fields : List Member
  methods : List Member
  deriving DecidableEq, Repr

/-- A failure inside a field or method, with as much of its name as was read. -/
structure MemberFailure where
  name : Text
  descriptor : Text
  isMethod : Bool
  fault : Fault
  deriving DecidableEq, Repr

/-- A failure to read a class file, with the name of the class once it is known. -/
structure ClassFileFailure where
  thisClass : Option Text
  member : Option MemberFailure
  fault : Fault
  deriving DecidableEq, Repr

end JvmLinkage
