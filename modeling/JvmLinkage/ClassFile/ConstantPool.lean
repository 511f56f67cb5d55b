import JvmLinkage.ClassFile.Reader
import JvmLinkage.Text.ModifiedUtf8

/-!
# The constant pool

Class files name everything through a table of constants. Indices start at one; a constant of eight
octets takes two indices, of which the second is unusable.
-/

namespace JvmLinkage

/-- A constant; indices refer to other constants of the same pool. -/
inductive Constant where
  | utf8 (text : Text)
  | integer (bits : UInt32)
  | float (bits : UInt32)
  | long (bits : UInt64)
  | double (bits : UInt64)
  | classRef (name : UInt16)
  | string (text : UInt16)
  | fieldRef (owner nameAndType : UInt16)
  | methodRef (owner nameAndType : UInt16)
  | interfaceMethodRef (owner nameAndType : UInt16)
  | nameAndType (name descriptor : UInt16)
  | methodHandle (kind : UInt8) (reference : UInt16)
  | methodType (descriptor : UInt16)
  | dynamic (bootstrap nameAndType : UInt16)
  | invokeDynamic (bootstrap nameAndType : UInt16)
  | moduleRef (name : UInt16)
  | packageRef (name : UInt16)
  deriving DecidableEq, Repr

namespace Constant

/-- The kind of a constant. -/
def tag : Constant → Tag
  | utf8 _ => .utf8
  | integer _ => .integer
  | float _ => .float
  | long _ => .long
  | double _ => .double
  | classRef _ => .classRef
  | string _ => .string
  | fieldRef .. => .fieldRef
  | methodRef .. => .methodRef
  | interfaceMethodRef .. => .interfaceMethodRef
  | nameAndType .. => .nameAndType
  | methodHandle .. => .methodHandle
  | methodType _ => .methodType
  | dynamic .. => .dynamic
  | invokeDynamic .. => .invokeDynamic
  | moduleRef _ => .moduleRef
  | packageRef _ => .packageRef

/-- Whether the constant takes two indices. -/
def isWide : Constant → Bool
  | long _ | double _ => true
  | _ => false

open Reader in
/-- Reads what follows the octet that announces a constant. -/
def readBody : Tag → Reader Fault Constant
  | .utf8 => do
    let length ← within (.reading "utf8 length") u2
    let data ← within (.reading "utf8 data") (bytes length.toNat)
    return utf8 (Text.ModifiedUtf8.decode data)
  | .integer => integer <$> u4
  | .float => float <$> u4
  | .long => long <$> u8
  | .double => double <$> u8
  | .classRef => classRef <$> u2
  | .string => string <$> u2
  | .fieldRef => do return fieldRef (← u2) (← u2)
  | .methodRef => do return methodRef (← u2) (← u2)
  | .interfaceMethodRef => do return interfaceMethodRef (← u2) (← u2)
  | .nameAndType => do return nameAndType (← u2) (← u2)
  | .methodHandle => do return methodHandle (← u1) (← u2)
  | .methodType => methodType <$> u2
  | .dynamic => do return dynamic (← u2) (← u2)
  | .invokeDynamic => do return invokeDynamic (← u2) (← u2)
  | .moduleRef => moduleRef <$> u2
  | .packageRef => packageRef <$> u2

open Reader in
/-- Reads a constant. -/
def read : Reader Fault Constant := do
  let code ← within (.reading "tag") u1
  match Tag.ofCode? code with
  | some tag => readBody tag
  | none => throw (.ofCause (.unknownTag code))

end Constant

/-- A field or method reference with its names resolved. -/
structure MemberRef where
  tag : Tag
  owner : Text
  name : Text
  descriptor : Text
  deriving DecidableEq, Repr

/-- The constants by index; unusable indices hold none. -/
structure ConstantPool where
  slots : Array (Option Constant)
  deriving DecidableEq, Repr

namespace ConstantPool

/-- Reads constants for `n` indices, the first of which is given. -/
def readSlots : (index n : Nat) → Reader Fault (List (Option Constant))
  | _, 0 => pure []
  | index, 1 => do
    let c ← Reader.within (.item "constant pool entry" index) Constant.read
    return [some c]
  | index, n + 2 => do
    let c ← Reader.within (.item "constant pool entry" index) Constant.read
    if c.isWide then
      let slots ← readSlots (index + 2) n
      return some c :: none :: slots
    else
      let slots ← readSlots (index + 1) (n + 1)
      return some c :: slots

/-- Reads the pool. Its first two octets count the indices, the unusable index zero among them. -/
def read : Reader Fault ConstantPool := do
  let count ← Reader.within (.reading "constant pool count") Reader.u2
  match count.toNat with
  | 0 => return ⟨#[]⟩
  | n + 1 =>
    let slots ← readSlots 1 n
    return ⟨(none :: slots).toArray⟩

/-- The number of indices, index zero among them. -/
def size (p : ConstantPool) : Nat := p.slots.size

/-- The constant at an index. -/
def get (p : ConstantPool) (index : UInt16) : Except Fault Constant :=
  if index = 0 then .error (.ofCause (.indexOutOfRange index p.size))
  else match p.slots[index.toNat]? with
    | none => .error (.ofCause (.indexOutOfRange index p.size))
    | some none => .error (.ofCause (.unusableSlot index))
    | some (some c) => .ok c

/-- The text at an index. -/
def utf8 (p : ConstantPool) (index : UInt16) : Except Fault Text := do
  match ← p.get index with
  | .utf8 text => return text
  | c => throw (.ofCause (.wrongTag index [.utf8] c.tag))

/-- The name of the class at an index: slashed, or the encoded form of an array type. -/
def className (p : ConstantPool) (index : UInt16) : Except Fault Text := do
  match ← p.get index with
  | .classRef name => p.utf8 name
  | c => throw (.ofCause (.wrongTag index [.classRef] c.tag))

/-- The name and the encoded type at an index. -/
def nameAndType (p : ConstantPool) (index : UInt16) : Except Fault (Text × Text) := do
  match ← p.get index with
  | .nameAndType name descriptor => return (← p.utf8 name, ← p.utf8 descriptor)
  | c => throw (.ofCause (.wrongTag index [.nameAndType] c.tag))

/-- The parts of a field or method reference. -/
def refParts? : Constant → Option (UInt16 × UInt16)
  | .fieldRef owner sig | .methodRef owner sig | .interfaceMethodRef owner sig => some (owner, sig)
  | _ => none

/-- The field or method reference at an index. -/
def memberRef (p : ConstantPool) (index : UInt16) : Except Fault MemberRef := do
  let c ← p.get index
  match refParts? c with
  | none => throw (.ofCause (.wrongTag index [.fieldRef, .methodRef, .interfaceMethodRef] c.tag))
  | some (ownerIndex, sigIndex) =>
    let owner ← (p.className ownerIndex).mapError (Fault.placed (.part ("owner of " ++ c.tag.shown)))
    let (name, descriptor) ← (p.nameAndType sigIndex).mapError
      (Fault.placed (.part ("name and type of " ++ c.tag.shown)))
    return ⟨c.tag, owner, name, descriptor⟩

end ConstantPool

end JvmLinkage
