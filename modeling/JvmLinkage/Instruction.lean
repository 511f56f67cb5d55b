import JvmLinkage.ClassFile.Reader

/-!
# Instructions

The code of a method is a row of instructions, each an opcode with operands. Most opcodes have a
fixed number of operand octets; switches and the wide form carry their size in their operands.
-/

namespace JvmLinkage

/-- An instruction and its position in the code. -/
structure Instruction where
  pc : Nat
  opcode : UInt8
  operands : Bytes
  deriving DecidableEq, Repr

namespace Opcode

abbrev ldc : UInt8 := 0x12
abbrev ldcWide : UInt8 := 0x13
abbrev pop : UInt8 := 0x57
abbrev increment : UInt8 := 0x84
abbrev tableSwitch : UInt8 := 0xAA
abbrev lookupSwitch : UInt8 := 0xAB
abbrev returnVoid : UInt8 := 0xB1
abbrev getStatic : UInt8 := 0xB2
abbrev putStatic : UInt8 := 0xB3
abbrev getField : UInt8 := 0xB4
abbrev putField : UInt8 := 0xB5
abbrev invokeVirtual : UInt8 := 0xB6
abbrev invokeSpecial : UInt8 := 0xB7
abbrev invokeStatic : UInt8 := 0xB8
abbrev invokeInterface : UInt8 := 0xB9
abbrev wide : UInt8 := 0xC4

/-- The opcodes of fixed size: first and last of a range, and the number of operand octets. -/
def fixedRanges : List (UInt8 × UInt8 × Nat) :=
  [(0x00, 0x0F, 0), (0x10, 0x10, 1), (0x11, 0x11, 2), (0x12, 0x12, 1), (0x13, 0x14, 2),
    (0x15, 0x19, 1), (0x1A, 0x35, 0), (0x36, 0x3A, 1), (0x3B, 0x83, 0), (0x84, 0x84, 2),
    (0x85, 0x98, 0), (0x99, 0xA8, 2), (0xA9, 0xA9, 1), (0xAC, 0xB1, 0), (0xB2, 0xB8, 2),
    (0xB9, 0xBA, 4), (0xBB, 0xBB, 2), (0xBC, 0xBC, 1), (0xBD, 0xBD, 2), (0xBE, 0xBF, 0),
    (0xC0, 0xC1, 2), (0xC2, 0xC3, 0), (0xC5, 0xC5, 3), (0xC6, 0xC7, 2), (0xC8, 0xC9, 4),
    (0xCA, 0xCA, 0), (0xFE, 0xFF, 0)]

/-- The number of operand octets of an opcode of fixed size. -/
def fixedOperands? (opcode : UInt8) : Option Nat :=
  (fixedRanges.find? fun (first, last, _) => first ≤ opcode && opcode ≤ last).map (·.2.2)

end Opcode

namespace Instruction

/-- The first operand octet as an index of a constant. -/
def index1 (i : Instruction) : UInt16 := (Bytes.toNat (i.operands.take 1)).toUInt16

/-- The first two operand octets as an index of a constant. -/
def index2 (i : Instruction) : UInt16 := (Bytes.toNat (i.operands.take 2)).toUInt16

/-- The octets of an instruction. -/
def bytes (i : Instruction) : Bytes := i.opcode :: i.operands

/-- The number of octets between a switch opcode and its aligned operands. -/
def padding (pc : Nat) : Nat := (4 - (pc + 1) % 4) % 4

/-- The signed number of four octets at a position after the opcode. -/
def operandWord (pc : Nat) (rest : Bytes) (position : Nat) : Except Cause Int :=
  let word := (rest.drop position).take 4
  if word.length = 4 then .ok (Bytes.toNat word).toUInt32.toInt32.toInt
  else .error (.switchOperand (pc + 1 + position))

/-- The number of operand octets of a switch with `count` entries of `entrySize` octets each, after
`head` octets. -/
def switchOperands (pc : Nat) (rest : Bytes) (head : Nat) (count : Int) (entrySize : Nat) :
    Except Cause Nat :=
  let size := head + count.toNat * entrySize
  if size ≤ rest.length then .ok size else .error (.switchEntries pc count)

/-- The number of operand octets of the instruction at `pc`, given what follows its opcode. -/
def operandCount (pc : Nat) (opcode : UInt8) (rest : Bytes) : Except Cause Nat :=
  match Opcode.fixedOperands? opcode with
  | some n => .ok n
  | none =>
    let start := padding pc
    if opcode = Opcode.tableSwitch then do
      let low ← operandWord pc rest (start + 4)
      let high ← operandWord pc rest (start + 8)
      if high < low then throw (.emptySwitch pc low high)
      switchOperands pc rest (start + 12) (high - low + 1) 4
    else if opcode = Opcode.lookupSwitch then do
      let pairs ← operandWord pc rest (start + 4)
      if pairs < 0 then throw (.negativePairs pc pairs)
      switchOperands pc rest (start + 8) pairs 8
    else if opcode = Opcode.wide then
      match rest with
      | [] => .error (.truncatedWide pc)
      | next :: _ => .ok (if next = Opcode.increment then 5 else 3)
    else .error (.invalidOpcode opcode pc)

/-- The instructions of code of a known size from position `pc` on, and why the walk ended before
the end of the code, if it did. -/
def walkFrom (size pc : Nat) : Bytes → List Instruction × Option Cause
  | [] => ([], none)
  | opcode :: rest =>
    match operandCount pc opcode rest with
    | .error cause => ([], some cause)
    | .ok n =>
      let operands := rest.take n
      if operands.length = n then
        let (more, cause) := walkFrom size (pc + 1 + n) (rest.drop n)
        (⟨pc, opcode, operands⟩ :: more, cause)
      else ([], some (.instructionOverrun opcode pc size))
termination_by code => code.length
decreasing_by
  simp only [List.length_drop, List.length_cons]
  omega

/-- The instructions of a method's code, and why the walk ended before its end, if it did. -/
def walk (code : Bytes) : List Instruction × Option Cause := walkFrom code.length 0 code

end Instruction

end JvmLinkage
