import JvmLinkage.Descriptor.Parser

/-!
# Faults in class files

A fault is a cause together with the places, outermost first, at which reading met it.
-/

namespace JvmLinkage

/-- The kinds of constants. -/
inductive Tag where
  | utf8 | integer | float | long | double | classRef | string | fieldRef | methodRef
  | interfaceMethodRef | nameAndType | methodHandle | methodType | dynamic | invokeDynamic
  | moduleRef | packageRef
  deriving DecidableEq, Repr, Inhabited

namespace Tag

/-- Every kind of constant. -/
def all : List Tag :=
  [utf8, integer, float, long, double, classRef, string, fieldRef, methodRef, interfaceMethodRef,
    nameAndType, methodHandle, methodType, dynamic, invokeDynamic, moduleRef, packageRef]

/-- The octet that announces a constant of the kind. -/
def code : Tag → UInt8
  | utf8 => 1
  | integer => 3
  | float => 4
  | long => 5
  | double => 6
  | classRef => 7
  | string => 8
  | fieldRef => 9
  | methodRef => 10
  | interfaceMethodRef => 11
  | nameAndType => 12
  | methodHandle => 15
  | methodType => 16
  | dynamic => 17
  | invokeDynamic => 18
  | moduleRef => 19
  | packageRef => 20

/-- The name of the kind. -/
def shown : Tag → Text
  | utf8 => "Utf8"
  | integer => "Integer"
  | float => "Float"
  | long => "Long"
  | double => "Double"
  | classRef => "Class"
  | string => "String"
  | fieldRef => "Fieldref"
  | methodRef => "Methodref"
  | interfaceMethodRef => "InterfaceMethodref"
  | nameAndType => "NameAndType"
  | methodHandle => "MethodHandle"
  | methodType => "MethodType"
  | dynamic => "Dynamic"
  | invokeDynamic => "InvokeDynamic"
  | moduleRef => "Module"
  | packageRef => "Package"

/-- The kind that an octet announces. -/
def ofCode? (b : UInt8) : Option Tag := all.find? fun t => t.code = b

/-- The name of the kind that an octet announces, also when there is no such kind. -/
def shownCode (b : UInt8) : Text :=
  match ofCode? b with
  | some t => t.shown
  | none => "ConstantTag(" ++ Text.ofNat b.toNat ++ ")"

end Tag

/-- What was being done when a fault was met. -/
inductive Place where
  | reading (what : Text)
  | resolving (what : Text)
  | parsing (what : Text)
  | skipping (count : Int)
  | item (what : Text) (index : Nat)
  | attributeOf (index : Nat) (owner : Text)
  | part (what : Text)
  | site (what : Text) (pc : Nat)
  deriving DecidableEq, Repr

namespace Place

/-- The words that lead from a place to what happened there. -/
def message : Place → Text
  | reading what => "failed to read " ++ what ++ ": "
  | resolving what => "failed to resolve " ++ what ++ ": "
  | parsing what => "failed to parse " ++ what ++ ": "
  | skipping count => "failed to skip " ++ Text.ofInt count ++ " bytes: "
  | item what index => what ++ " " ++ Text.ofNat index ++ ": "
  | attributeOf index owner => "attribute " ++ Text.ofNat index ++ " of " ++ owner ++ ": "
  | part what => what ++ ": "
  | site what pc => what ++ " at pc " ++ Text.ofNat pc ++ ": "

end Place

/-- What is wrong. -/
inductive Cause where
  | truncated (need : Int) (offset available : Nat)
  | instructionOverrun (opcode : UInt8) (pc size : Nat)
  | switchOperand (offset : Nat)
  | switchEntries (pc : Nat) (count : Int)
  | truncatedWide (pc : Nat)
  | badMagic (magic : UInt32)
  | unknownTag (code : UInt8)
  | indexOutOfRange (index : UInt16) (size : Nat)
  | unusableSlot (index : UInt16)
  | wrongTag (index : UInt16) (expected : List Tag) (found : Tag)
  | emptySwitch (pc : Nat) (low high : Int)
  | negativePairs (pc : Nat) (count : Int)
  | invalidOpcode (opcode : UInt8) (pc : Nat)
  | descriptor (cause : Malformed)
  | duplicateMethod (method : Method) (owner : ClassName)
  deriving DecidableEq, Repr

namespace Cause

/-- The words of every cause that amounts to input that ended too early. -/
def endOfFile : Text := "unexpected end of classfile: "

/-- The message of a cause. -/
def message : Cause → Text
  | truncated need offset available =>
    endOfFile ++ "need " ++ Text.ofInt need ++ " bytes at offset " ++ Text.ofNat offset ++ ", have "
      ++ Text.ofNat available
  | instructionOverrun opcode pc size =>
    endOfFile ++ "instruction 0x" ++ Text.hex 2 opcode.toNat ++ " at pc " ++ Text.ofNat pc
      ++ " overruns code (length " ++ Text.ofNat size ++ ")"
  | switchOperand offset => endOfFile ++ "switch operand at offset " ++ Text.ofNat offset
  | switchEntries pc count =>
    endOfFile ++ "switch at pc " ++ Text.ofNat pc ++ " has " ++ Text.ofInt count
      ++ " entries past end of code"
  | truncatedWide pc => endOfFile ++ "wide at pc " ++ Text.ofNat pc
  | badMagic magic => "not a classfile: magic 0x" ++ (Text.hex 8 magic.toNat).upper
  | unknownTag code => "unknown constant tag " ++ Text.ofNat code.toNat
  | indexOutOfRange index size =>
    "constant pool index " ++ Text.ofNat index.toNat ++ " out of range [1, " ++ Text.ofNat size ++ ")"
  | unusableSlot index =>
    "constant pool index " ++ Text.ofNat index.toNat ++ " is an unusable slot"
  | wrongTag index expected found =>
    "constant pool index " ++ Text.ofNat index.toNat ++ ": expected ["
      ++ Text.join " " (expected.map Tag.shown) ++ "], found " ++ found.shown
  | emptySwitch pc low high =>
    "tableswitch at pc " ++ Text.ofNat pc ++ ": high " ++ Text.ofInt high ++ " < low "
      ++ Text.ofInt low
  | negativePairs pc count =>
    "lookupswitch at pc " ++ Text.ofNat pc ++ ": negative pair count " ++ Text.ofInt count
  | invalidOpcode opcode pc =>
    "invalid opcode 0x" ++ Text.hex 2 opcode.toNat ++ " at pc " ++ Text.ofNat pc
  | descriptor cause => cause.message
  | duplicateMethod method owner =>
    "duplicate method: " ++ method.shownCall ++ " in " ++ owner.dotted

/-- Whether the input ended too early. -/
def isTruncation : Cause → Bool
  | truncated .. | instructionOverrun .. | switchOperand .. | switchEntries .. | truncatedWide .. =>
    true
  | _ => false

end Cause

/-- A cause with the places at which it was met, outermost first. -/
structure Fault where
  places : List Place
  cause : Cause
  deriving DecidableEq, Repr

namespace Fault

/-- A fault about which no place is known yet. -/
def ofCause (cause : Cause) : Fault := ⟨[], cause⟩

/-- The fault seen from one place further out. -/
def placed (place : Place) (f : Fault) : Fault := { f with places := place :: f.places }

/-- The message of a fault. -/
def message (f : Fault) : Text := f.places.flatMap Place.message ++ f.cause.message

end Fault

end JvmLinkage
