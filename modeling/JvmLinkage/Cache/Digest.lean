import JvmLinkage.Octets
import JvmLinkage.Text.Decimal

/-!
# Digests

The digest of a content by SHA-256: the content is padded to blocks of sixty-four octets, and each
block is mixed into a state of eight words.
-/

namespace JvmLinkage.Digest

/-- The constants of the rounds. -/
def roundConstants : List UInt32 :=
  [0x428a2f98, 0x71374491, 0xb5c0fbcf, 0xe9b5dba5, 0x3956c25b, 0x59f111f1, 0x923f82a4, 0xab1c5ed5,
    0xd807aa98, 0x12835b01, 0x243185be, 0x550c7dc3, 0x72be5d74, 0x80deb1fe, 0x9bdc06a7, 0xc19bf174,
    0xe49b69c1, 0xefbe4786, 0x0fc19dc6, 0x240ca1cc, 0x2de92c6f, 0x4a7484aa, 0x5cb0a9dc, 0x76f988da,
    0x983e5152, 0xa831c66d, 0xb00327c8, 0xbf597fc7, 0xc6e00bf3, 0xd5a79147, 0x06ca6351, 0x14292967,
    0x27b70a85, 0x2e1b2138, 0x4d2c6dfc, 0x53380d13, 0x650a7354, 0x766a0abb, 0x81c2c92e, 0x92722c85,
    0xa2bfe8a1, 0xa81a664b, 0xc24b8b70, 0xc76c51a3, 0xd192e819, 0xd6990624, 0xf40e3585, 0x106aa070,
    0x19a4c116, 0x1e376c08, 0x2748774c, 0x34b0bcb5, 0x391c0cb3, 0x4ed8aa4a, 0x5b9cca4f, 0x682e6ff3,
    0x748f82ee, 0x78a5636f, 0x84c87814, 0x8cc70208, 0x90befffa, 0xa4506ceb, 0xbef9a3f7, 0xc67178f2]

/-- The eight words that blocks are mixed into. -/
structure State where
  a : UInt32
  b : UInt32
  c : UInt32
  d : UInt32
  e : UInt32
  f : UInt32
  g : UInt32
  h : UInt32
  deriving DecidableEq, Repr, Inhabited

namespace State

/-- The state before the first block. -/
def start : State :=
  ⟨0x6a09e667, 0xbb67ae85, 0x3c6ef372, 0xa54ff53a, 0x510e527f, 0x9b05688c, 0x1f83d9ab, 0x5be0cd19⟩

/-- The sum of two states, word by word. -/
def add (s t : State) : State :=
  ⟨s.a + t.a, s.b + t.b, s.c + t.c, s.d + t.d, s.e + t.e, s.f + t.f, s.g + t.g, s.h + t.h⟩

/-- The words of a state in order. -/
def words (s : State) : List UInt32 := [s.a, s.b, s.c, s.d, s.e, s.f, s.g, s.h]

end State

/-- The word with its bits rotated to the right. -/
def rotate (n : UInt32) (w : UInt32) : UInt32 := (w >>> n) ||| (w <<< (32 - n))

/-- One round: a constant and a word of the schedule are mixed into the state. -/
def round (s : State) (input : UInt32 × UInt32) : State :=
  let high := rotate 6 s.e ^^^ rotate 11 s.e ^^^ rotate 25 s.e
  let choice := (s.e &&& s.f) ^^^ ((s.e ^^^ 0xFFFFFFFF) &&& s.g)
  let first := s.h + high + choice + input.1 + input.2
  let low := rotate 2 s.a ^^^ rotate 13 s.a ^^^ rotate 22 s.a
  let majority := (s.a &&& s.b) ^^^ (s.a &&& s.c) ^^^ (s.b &&& s.c)
  ⟨first + low + majority, s.a, s.b, s.c, s.d + first, s.e, s.f, s.g⟩

/-- Extends a schedule, newest word first, by `n` words. -/
def extend : (n : Nat) → List UInt32 → List UInt32
  | 0, schedule => schedule
  | n + 1, schedule =>
    let word (back : Nat) : UInt32 := schedule[back - 1]?.getD 0
    let near := rotate 17 (word 2) ^^^ rotate 19 (word 2) ^^^ (word 2 >>> 10)
    let far := rotate 7 (word 15) ^^^ rotate 18 (word 15) ^^^ (word 15 >>> 3)
    extend n ((near + word 7 + far + word 16) :: schedule)

/-- The big-endian words of octets. -/
def wordsOf : Bytes → List UInt32
  | a :: b :: c :: d :: rest =>
    ((a.toUInt32 <<< 24) ||| (b.toUInt32 <<< 16) ||| (c.toUInt32 <<< 8) ||| d.toUInt32)
      :: wordsOf rest
  | _ => []

/-- Mixes a block into the state. -/
def mix (s : State) (block : Bytes) : State :=
  let schedule := (extend 48 (wordsOf block).reverse).reverse
  s.add ((roundConstants.zip schedule).foldl round s)

/-- Mixes `n` blocks into the state. -/
def mixAll : (n : Nat) → State → Bytes → State
  | 0, s, _ => s
  | n + 1, s, data => mixAll n (mix s (data.take 64)) (data.drop 64)

/-- The length of a content in bits, in eight octets. -/
def bitLength (size : Nat) : Bytes := Bytes.ofNat 8 (size * 8)

/-- The content followed by a mark, zeros up to a full block, and its length. -/
def padded (data : Bytes) : Bytes :=
  let zeros := (119 - data.length % 64) % 64
  data ++ 0x80 :: List.replicate zeros 0 ++ bitLength data.length

/-- The digest of a content in hexadecimal digits. -/
def hexOf (data : Bytes) : Text :=
  let blocks := padded data
  (mixAll (blocks.length / 64) State.start blocks).words.flatMap fun w => Text.hex 8 w.toNat

theorem length_hexOf (data : Bytes) : (hexOf data).length = 64 := by
  simp [hexOf, State.words]

end JvmLinkage.Digest
