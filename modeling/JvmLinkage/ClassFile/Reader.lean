import JvmLinkage.ClassFile.Fault
import JvmLinkage.Octets

/-!
# Reading octets in order

A reader takes octets from the front of its input and keeps count of those taken, since every
failure names the position at which input was missing. Numbers are big-endian.
-/

namespace JvmLinkage

/-- The input still to be read, and the number of octets read before it. -/
structure Cursor where
  rest : Bytes
  offset : Nat
  deriving DecidableEq, Repr

namespace Cursor

/-- The start of an input. -/
def start (data : Bytes) : Cursor := ⟨data, 0⟩

end Cursor

/-- A step that takes octets from the front of the input or fails. -/
abbrev Reader (ε α : Type) := StateT Cursor (Except ε) α

namespace Reader

variable {ε δ α : Type}

/-- Reads with failures put in other words. -/
def mapError (f : ε → δ) (read : Reader ε α) : Reader δ α := fun c =>
  match read c with
  | .ok r => .ok r
  | .error e => .error (f e)

/-- Reads with failures placed. -/
def within (place : Place) (read : Reader Fault α) : Reader Fault α := mapError (Fault.placed place) read

/-- Goes on with a result that does not depend on the input. -/
def given (r : Except ε α) : Reader ε α := fun c =>
  match r with
  | .ok a => .ok (a, c)
  | .error e => .error e

/-- Takes `n` octets. -/
def bytes (n : Nat) : Reader Fault Bytes := fun c =>
  let taken := c.rest.take n
  if taken.length = n then .ok (taken, ⟨c.rest.drop n, c.offset + n⟩)
  else .error (.ofCause (.truncated n c.offset c.rest.length))

/-- Takes as many octets as asked for; a negative number never can be taken. -/
def bytesOf (n : Int) : Reader Fault Bytes :=
  if n < 0 then fun c => .error (.ofCause (.truncated n c.offset c.rest.length)) else bytes n.toNat

/-- Passes over `n` octets. -/
def skip (n : Int) : Reader Fault Unit := do
  let _ ← within (.skipping n) (bytesOf n)

/-- Reads one octet. -/
def u1 : Reader Fault UInt8 := (fun bs => (Bytes.toNat bs).toUInt8) <$> bytes 1

/-- Reads a number of two octets. -/
def u2 : Reader Fault UInt16 := (fun bs => (Bytes.toNat bs).toUInt16) <$> bytes 2

/-- Reads a number of four octets. -/
def u4 : Reader Fault UInt32 := (fun bs => (Bytes.toNat bs).toUInt32) <$> bytes 4

/-- Reads a number of eight octets. -/
def u8 : Reader Fault UInt64 := (fun bs => (Bytes.toNat bs).toUInt64) <$> bytes 8

/-- Reads a signed number of four octets. -/
def i4 : Reader Fault Int32 := UInt32.toInt32 <$> u4

/-- Reads `n` items, each knowing its index, which counts from `first`. -/
def itemsFrom (read : Nat → Reader ε α) : (first n : Nat) → Reader ε (List α)
  | _, 0 => pure []
  | first, n + 1 => do
    let item ← read first
    let items ← itemsFrom read (first + 1) n
    return item :: items

/-- Reads `n` items, each knowing its index. -/
def items (n : Nat) (read : Nat → Reader ε α) : Reader ε (List α) := itemsFrom read 0 n

end Reader

end JvmLinkage
