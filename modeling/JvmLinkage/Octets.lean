import JvmLinkage.Text.Basic

/-!
# Numbers in octets

Class files, cache entries and digests keep numbers in a fixed number of octets, highest first.
-/

namespace JvmLinkage.Bytes

/-- The lowest `width` octets of a number, highest first. -/
def ofNat : (width n : Nat) → Bytes
  | 0, _ => []
  | width + 1, n => ofNat width (n / 256) ++ [n.toUInt8]

/-- The number that octets stand for, highest first. -/
def toNat (bs : Bytes) : Nat := bs.foldl (fun n b => n * 256 + b.toNat) 0

end JvmLinkage.Bytes
