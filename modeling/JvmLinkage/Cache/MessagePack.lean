import JvmLinkage.Octets

/-!
# Packed values

Values in the MessagePack format: each starts with an octet that tells its kind and, for small
values, its size. Writing takes the shortest form; reading accepts every form.
-/

namespace JvmLinkage

/-- A value of the format. Floating-point numbers and extensions are kept as octets. -/
inductive Packed where
  | nil
  | bool (b : Bool)
  | int (n : Int)
  | float (octets : Bytes)
  | text (t : Bytes)
  | binary (t : Bytes)
  | extension (octets : Bytes)
  | array (items : List Packed)
  | map (entries : List (Packed × Packed))
  deriving Repr, Inhabited

namespace Packed

/-! ## Writing -/

/-- The shortest form of an integer of sixty-four bits. -/
def encodeInt (n : Int) : Bytes :=
  let low (width : Nat) : Bytes := Bytes.ofNat width (n % 0x10000000000000000).toNat
  if 0 ≤ n then
    if n < 0x80 then low 1
    else if n < 0x100 then 0xCC :: low 1
    else if n < 0x10000 then 0xCD :: low 2
    else if n < 0x100000000 then 0xCE :: low 4
    else 0xCF :: low 8
  else
    if -0x20 ≤ n then low 1
    else if -0x80 ≤ n then 0xD0 :: low 1
    else if -0x8000 ≤ n then 0xD1 :: low 2
    else if -0x80000000 ≤ n then 0xD2 :: low 4
    else 0xD3 :: low 8

/-- The shortest announcement of a text of `n` octets. -/
def textHead (n : Nat) : Bytes :=
  if n < 0x20 then [0xA0 + n.toUInt8]
  else if n < 0x100 then 0xD9 :: Bytes.ofNat 1 n
  else if n < 0x10000 then 0xDA :: Bytes.ofNat 2 n
  else 0xDB :: Bytes.ofNat 4 n

/-- The shortest announcement of octets of any kind. -/
def binaryHead (n : Nat) : Bytes :=
  if n < 0x100 then 0xC4 :: Bytes.ofNat 1 n
  else if n < 0x10000 then 0xC5 :: Bytes.ofNat 2 n
  else 0xC6 :: Bytes.ofNat 4 n

/-- The shortest announcement of `n` items. -/
def arrayHead (n : Nat) : Bytes :=
  if n < 0x10 then [0x90 + n.toUInt8]
  else if n < 0x10000 then 0xDC :: Bytes.ofNat 2 n
  else 0xDD :: Bytes.ofNat 4 n

/-- The shortest announcement of `n` entries. -/
def mapHead (n : Nat) : Bytes :=
  if n < 0x10 then [0x80 + n.toUInt8]
  else if n < 0x10000 then 0xDE :: Bytes.ofNat 2 n
  else 0xDF :: Bytes.ofNat 4 n

mutual

/-- The octets of a value. -/
def encode : Packed → Bytes
  | nil => [0xC0]
  | bool b => [if b then 0xC3 else 0xC2]
  | int n => encodeInt n
  | float octets | extension octets => octets
  | text t => textHead t.length ++ t
  | binary t => binaryHead t.length ++ t
  | array items => arrayHead items.length ++ encodeItems items
  | map entries => mapHead entries.length ++ encodeEntries entries

/-- The octets of items. -/
def encodeItems : List Packed → Bytes
  | [] => []
  | item :: items => encode item ++ encodeItems items

/-- The octets of entries. -/
def encodeEntries : List (Packed × Packed) → Bytes
  | [] => []
  | (key, value) :: entries => encode key ++ encode value ++ encodeEntries entries

end

/-! ## Reading -/

/-- Takes `n` octets from the front. -/
def take? (n : Nat) (data : Bytes) : Option (Bytes × Bytes) :=
  if data.length < n then none else some (data.take n, data.drop n)

/-- Takes a number of `width` octets. -/
def number? (width : Nat) (data : Bytes) : Option (Nat × Bytes) := do
  let (bs, rest) ← take? width data
  return (Bytes.toNat bs, rest)

/-- The integer of sixty-four bits that a number of `width` octets stands for by its sign bit. -/
def asSigned (width n : Nat) : Int := Int.bmod n (Nat.pow 256 width)

/-- Takes as many octets as a number of `width` octets says. -/
def counted? (width : Nat) (data : Bytes) : Option (Bytes × Bytes) := do
  let (n, rest) ← number? width data
  take? n rest

/-- Takes items with the given reader. -/
def items? (read : Bytes → Option (Packed × Bytes)) : Nat → Bytes → Option (List Packed × Bytes)
  | 0, data => some ([], data)
  | n + 1, data => do
    let (item, rest) ← read data
    let (items, rest) ← items? read n rest
    return (item :: items, rest)

/-- Takes entries with the given reader. -/
def entries? (read : Bytes → Option (Packed × Bytes)) :
    Nat → Bytes → Option (List (Packed × Packed) × Bytes)
  | 0, data => some ([], data)
  | n + 1, data => do
    let (key, rest) ← read data
    let (value, rest) ← read rest
    let (entries, rest) ← entries? read n rest
    return ((key, value) :: entries, rest)

/-- Takes a number without a sign. -/
def unsigned? (width : Nat) (data : Bytes) : Option (Packed × Bytes) := do
  let (n, rest) ← number? width data
  return (int n, rest)

/-- Takes a number with a sign. -/
def signed? (width : Nat) (data : Bytes) : Option (Packed × Bytes) := do
  let (n, rest) ← number? width data
  return (int (asSigned width n), rest)

/-- Takes a value of `n` octets. -/
def octets? (kind : Bytes → Packed) (n : Nat) (data : Bytes) : Option (Packed × Bytes) := do
  let (bs, rest) ← take? n data
  return (kind bs, rest)

/-- Takes a value of as many octets as a number of `width` octets says. -/
def countedOctets? (kind : Bytes → Packed) (width : Nat) (data : Bytes) :
    Option (Packed × Bytes) := do
  let (bs, rest) ← counted? width data
  return (kind bs, rest)

/-- Takes an extension, whose number of octets does not count the one for its type. -/
def countedExtension? (b : UInt8) (width : Nat) (data : Bytes) : Option (Packed × Bytes) := do
  let (n, rest) ← number? width data
  let (bs, rest) ← take? (n + 1) rest
  return (extension (b :: Bytes.ofNat width n ++ bs), rest)

/-- Takes a value that one of the marks above the short forms announces. -/
def marked? (b : UInt8) (data : Bytes) : Option (Packed × Bytes) :=
  match b.toNat with
  | 0xC0 => some (nil, data)
  | 0xC2 => some (bool false, data)
  | 0xC3 => some (bool true, data)
  | 0xC4 => countedOctets? binary 1 data
  | 0xC5 => countedOctets? binary 2 data
  | 0xC6 => countedOctets? binary 4 data
  | 0xC7 => countedExtension? b 1 data
  | 0xC8 => countedExtension? b 2 data
  | 0xC9 => countedExtension? b 4 data
  | 0xCA => octets? (fun bs => float (b :: bs)) 4 data
  | 0xCB => octets? (fun bs => float (b :: bs)) 8 data
  | 0xCC => unsigned? 1 data
  | 0xCD => unsigned? 2 data
  | 0xCE => unsigned? 4 data
  | 0xCF => signed? 8 data
  | 0xD0 => signed? 1 data
  | 0xD1 => signed? 2 data
  | 0xD2 => signed? 4 data
  | 0xD3 => signed? 8 data
  | 0xD4 => octets? (fun bs => extension (b :: bs)) 2 data
  | 0xD5 => octets? (fun bs => extension (b :: bs)) 3 data
  | 0xD6 => octets? (fun bs => extension (b :: bs)) 5 data
  | 0xD7 => octets? (fun bs => extension (b :: bs)) 9 data
  | 0xD8 => octets? (fun bs => extension (b :: bs)) 17 data
  | 0xD9 => countedOctets? text 1 data
  | 0xDA => countedOctets? text 2 data
  | 0xDB => countedOctets? text 4 data
  | _ => none

/-- Takes a value that is no collection, announced by the octet `b`. -/
def scalar? (b : UInt8) (data : Bytes) : Option (Packed × Bytes) :=
  if b < 0x80 then some (int b.toNat, data)
  else if 0xE0 ≤ b then some (int (asSigned 1 b.toNat), data)
  else if 0xA0 ≤ b && b < 0xC0 then octets? text (b.toNat - 0xA0) data
  else marked? b data

/-- The number of items that the octet `b` announces, and what follows the announcement. -/
def arraySize? (b : UInt8) (data : Bytes) : Option (Nat × Bytes) :=
  if 0x90 ≤ b && b < 0xA0 then some (b.toNat - 0x90, data)
  else if b = 0xDC then number? 2 data
  else if b = 0xDD then number? 4 data
  else none

/-- The number of entries that the octet `b` announces, and what follows the announcement. -/
def mapSize? (b : UInt8) (data : Bytes) : Option (Nat × Bytes) :=
  if 0x80 ≤ b && b < 0x90 then some (b.toNat - 0x80, data)
  else if b = 0xDE then number? 2 data
  else if b = 0xDF then number? 4 data
  else none

/-- Whether the octet announces items. -/
def isArrayMark (b : UInt8) : Bool := (0x90 ≤ b && b < 0xA0) || b = 0xDC || b = 0xDD

/-- Whether the octet announces entries. -/
def isMapMark (b : UInt8) : Bool := (0x80 ≤ b && b < 0x90) || b = 0xDE || b = 0xDF

/-- The value at the front of the data, nested less than `depth` deep, and what follows it. -/
def readWithin : (depth : Nat) → Bytes → Option (Packed × Bytes)
  | 0, _ => none
  | _, [] => none
  | depth + 1, b :: rest => do
    if isArrayMark b then
      let (n, rest) ← arraySize? b rest
      let (items, rest) ← items? (readWithin depth) n rest
      return (array items, rest)
    else if isMapMark b then
      let (n, rest) ← mapSize? b rest
      let (entries, rest) ← entries? (readWithin depth) n rest
      return (map entries, rest)
    else scalar? b rest

/-- The value at the front of the data, and what follows it. A value takes an octet at least, so
that none is nested deeper than the data is long. -/
def read? (data : Bytes) : Option (Packed × Bytes) := readWithin (data.length + 1) data

end Packed

end JvmLinkage
