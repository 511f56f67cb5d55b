import JvmLinkage.Archive.Basic

/-!
# Compressed members of archives

Compressed data is a row of bits, lowest bit of each octet first. It is made of blocks, each of
which is plain or coded: a coded block spells octets and repetitions of earlier output with two
prefix codes. Octets are read when their bits are needed, and what is wrong with the data is met
after a number of octets that tells the place. What came out before that is kept.
-/

namespace JvmLinkage.Deflate

/-- The octets still to be read, how many were read, those bits of them that are not used up, as a
number and how many there are, and the output. -/
structure State where
  unread : Bytes
  read : Nat := 0
  bits : Nat := 0
  held : Nat := 0
  out : Array UInt8 := #[]

/-- A step that undoes some of the compression, or finds the data at odds with the format. -/
abbrev Inflating := ExceptT ArchiveFailure (StateM State)

/-- The data is at odds with the format. -/
def corrupt {α : Type} : Inflating α := do throw (.corruptData (← get).read)

/-! ## Bits -/

/-- Reads the bits of a number of octets. -/
def readOctets : (count : Nat) → Inflating Unit
  | 0 => return
  | count + 1 => do
    let s ← get
    match s.unread with
    | [] => throw .cutShort
    | b :: rest =>
      set { s with
        unread := rest
        read := s.read + 1
        bits := s.bits + b.toNat <<< s.held
        held := s.held + 8 }
      readOctets count

/-- Reads octets until there are `n` bits. -/
def need (n : Nat) : Inflating Unit := do readOctets ((n - (← get).held + 7) / 8)

/-- Uses up `n` bits as a number. -/
def take (n : Nat) : Inflating Nat := do
  need n
  let s ← get
  set { s with bits := s.bits >>> n, held := s.held - n }
  return s.bits % (1 <<< n)

/-- Appends an octet to the output. -/
def emit (b : UInt8) : Inflating Unit := modify fun s => { s with out := s.out.push b }

/-! ## Prefix codes -/

/-- A code given by the symbols of each length, shortest codes first, and the number of bits that
are read before the symbols are told apart. -/
structure Code where
  symbols : List (List Nat)
  ahead : Nat

namespace Code

/-- The greatest of the lengths. -/
def longest (lengths : List Nat) : Nat := lengths.foldl max 0

/-- How many codes of the greatest length there would be in place of all codes; the length zero is
no code. -/
def mass (lengths : List Nat) : Nat :=
  lengths.foldl (fun n length => if length = 0 then n else n + 1 <<< (longest lengths - length)) 0

/-- Whether the lengths leave no bits without a meaning and give none two of them. A code with one
symbol of one bit will do, and one without symbols, as long as it is not used. -/
def accepts (lengths : List Nat) : Bool :=
  longest lengths = 0 || mass lengths = 1 <<< longest lengths ||
    (mass lengths = 1 && longest lengths = 1)

/-- The code in which the symbol `i` has the length `lengths[i]`. -/
def ofLengths (lengths : List Nat) : Code where
  symbols := (List.range (longest lengths)).map fun n =>
    (List.range lengths.length).filter fun symbol => lengths[symbol]? = some (n + 1)
  ahead := (lengths.filter (· ≠ 0)).min?.getD 0

/-- Reads a symbol bit by bit: codes of one length are consecutive and follow the shorter ones. -/
def symbolFrom : (symbols : List (List Nat)) → (value first : Nat) → Inflating Nat
  | [], _, _ => corrupt
  | symbols :: longer, value, first => do
    let value := value + (← take 1)
    match symbols[value - first]? with
    | some symbol => return symbol
    | none => symbolFrom longer (value * 2) ((first + symbols.length) * 2)

/-- Reads a symbol. -/
def symbol (code : Code) : Inflating Nat := do
  need code.ahead
  symbolFrom code.symbols 0 0

end Code

/-- The code with given lengths, if they are those of a code. -/
def acceptedCode (lengths : List Nat) : Inflating Code :=
  if Code.accepts lengths then return .ofLengths lengths else corrupt

/-! ## Coded blocks -/

/-- The least length of each group of lengths, and the number of bits that say which one it is. -/
def lengthGroups : List (Nat × Nat) :=
  [(3, 0), (4, 0), (5, 0), (6, 0), (7, 0), (8, 0), (9, 0), (10, 0), (11, 1), (13, 1), (15, 1),
    (17, 1), (19, 2), (23, 2), (27, 2), (31, 2), (35, 3), (43, 3), (51, 3), (59, 3), (67, 4),
    (83, 4), (99, 4), (115, 4), (131, 5), (163, 5), (195, 5), (227, 5), (258, 0)]

/-- The least distance of each group of distances, and the number of bits that say which one. -/
def distanceGroups : List (Nat × Nat) :=
  [(1, 0), (2, 0), (3, 0), (4, 0), (5, 1), (7, 1), (9, 2), (13, 2), (17, 3), (25, 3), (33, 4),
    (49, 4), (65, 5), (97, 5), (129, 6), (193, 6), (257, 7), (385, 7), (513, 8), (769, 8),
    (1025, 9), (1537, 9), (2049, 10), (3073, 10), (4097, 11), (6145, 11), (8193, 12), (12289, 12),
    (16385, 13), (24577, 13)]

/-- Reads the member of a group. -/
def member (groups : List (Nat × Nat)) (index : Nat) : Inflating Nat :=
  match groups[index]? with
  | some (least, bits) => (least + ·) <$> take bits
  | none => corrupt

/-- Appends `count` octets, each of which is the one that stands `distance` octets before it. -/
def repeated (distance : Nat) : (count : Nat) → Array UInt8 → Array UInt8
  | 0, out => out
  | count + 1, out => repeated distance count (out.push (out.getD (out.size - distance) 0))

/-- Repeats `count` octets of the output from `distance` octets before its end. -/
def repeatFrom (distance count : Nat) : Inflating Unit := do
  if (← get).out.size < distance then corrupt
  modify fun s => { s with out := repeated distance count s.out }

/-- The symbol that ends a coded block. -/
def endOfBlock : Nat := 256

/-- Reads the symbols of a coded block. Each takes a bit at least, and `fuel` is greater than the
number of bits. -/
def symbols (literals distances : Code) : (fuel : Nat) → Inflating Unit
  | 0 => throw .cutShort
  | fuel + 1 => do
    let symbol ← literals.symbol
    if symbol < endOfBlock then
      emit symbol.toUInt8
      symbols literals distances fuel
    else if symbol ≠ endOfBlock then
      let count ← member lengthGroups (symbol - endOfBlock - 1)
      let distance ← member distanceGroups (← distances.symbol)
      repeatFrom distance count
      symbols literals distances fuel

/-- The code of octets and lengths in blocks that bring none of their own. -/
def fixedLiterals : Code :=
  .ofLengths (List.replicate 144 8 ++ List.replicate 112 9 ++ List.replicate 24 7
    ++ List.replicate 8 8)

/-- The code of distances in blocks that bring none of their own. -/
def fixedDistances : Code := .ofLengths (List.replicate 32 5)

/-! ## Codes of a block -/

/-- The order in which the lengths of the code for lengths are given. -/
def lengthOrder : List Nat := [16, 17, 18, 0, 8, 7, 9, 6, 10, 5, 11, 4, 12, 3, 13, 2, 14, 1, 15]

/-- Reads `n` lengths of three bits. -/
def shortLengths : (n : Nat) → Inflating (List Nat)
  | 0 => return []
  | n + 1 => do
    let length ← take 3
    return length :: (← shortLengths n)

/-- The length that a symbol stands for after others, and how often. -/
def codeLength (symbol : Nat) (before : List Nat) : Inflating (Nat × Nat) :=
  if symbol < 16 then return (symbol, 1)
  else if symbol = 16 then
    match before.getLast? with
    | some last => return (last, 3 + (← take 2))
    | none => corrupt
  else if symbol = 17 then return (0, 3 + (← take 3))
  else return (0, 11 + (← take 7))

/-- Reads code lengths until there are `wanted`. Each symbol stands for one at least, and `fuel` is
greater than the number wanted. -/
def codeLengths (code : Code) (wanted : Nat) : (fuel : Nat) → List Nat → Inflating (List Nat)
  | 0, _ => throw .cutShort
  | fuel + 1, lengths =>
    if lengths.length = wanted then return lengths
    else do
      let (length, count) ← codeLength (← code.symbol) lengths
      if wanted < lengths.length + count then corrupt
      codeLengths code wanted fuel (lengths ++ List.replicate count length)

/-- The greatest number of lengths in the code of octets and lengths. -/
def mostLiterals : Nat := 286

/-- The greatest number of lengths in the code of distances. -/
def mostDistances : Nat := 30

/-- Reads the two codes that a block brings. As every block ends with the symbol for its end, as many
bits as this one takes are read before the first code is used. -/
def blockCodes : Inflating (Code × Code) := do
  need 14
  let literals ← (257 + ·) <$> take 5
  if mostLiterals < literals then corrupt
  let distances ← (1 + ·) <$> take 5
  if mostDistances < distances then corrupt
  let given ← shortLengths ((← take 4) + 4)
  let code ← acceptedCode ((List.range lengthOrder.length).map fun symbol =>
    ((lengthOrder.zip given).lookup symbol).getD 0)
  let lengths ← codeLengths code (literals + distances) (literals + distances + 1) []
  let literalCode ← acceptedCode (lengths.take literals)
  let distanceCode ← acceptedCode (lengths.drop literals)
  let ahead := max literalCode.ahead ((lengths[endOfBlock]?).getD 0)
  return ({ literalCode with ahead }, distanceCode)

/-! ## Blocks -/

/-- Reads a plain block: its size, the complement of that, and its octets. Bits that were not used up
are left. -/
def plainBlock : Inflating Unit := do
  modify fun s => { s with bits := 0, held := 0 }
  let size ← take 16
  let complement ← take 16
  if size + complement ≠ 0xFFFF then corrupt
  let s ← get
  set { s with
    unread := s.unread.drop size
    read := s.read + min size s.unread.length
    out := s.out ++ s.unread.take size }
  if s.unread.length < size then throw .cutShort

/-- Reads blocks up to the last one; `fuel` bounds the number of blocks and of symbols in each. -/
def blocks : (fuel : Nat) → Inflating Unit
  | 0 => throw .cutShort
  | fuel + 1 => do
    need 3
    let isLast ← take 1
    match ← take 2 with
    | 0 => plainBlock
    | 1 => symbols fixedLiterals fixedDistances (fuel + 1)
    | 2 => do
      let (literals, distances) ← blockCodes
      symbols literals distances (fuel + 1)
    | _ => corrupt
    if isLast = 0 then blocks fuel

/-- The data that was compressed, as far as it could be found, and what came in the way. Every block
and every symbol takes a bit at least. -/
def inflate (data : Bytes) : Bytes × Option ArchiveFailure :=
  match (blocks (8 * data.length + 1)).run.run { unread := data } with
  | (.ok (), s) => (s.out.toList, none)
  | (.error failure, s) => (s.out.toList, some failure)

end JvmLinkage.Deflate
