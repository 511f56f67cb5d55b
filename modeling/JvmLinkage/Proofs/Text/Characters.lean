import JvmLinkage.Proofs.Text.ModifiedUtf8

/-!
# Characters in modified UTF-8

Every character has octets of its own: one to three for a character that is a single code unit, and
twice three, one surrogate after the other, for any other character. What is written so is read back
as UTF-8. Any other string of octets is read as well: it falls into units in exactly one way, and its
text is valid UTF-8.
-/

namespace JvmLinkage.Text.ModifiedUtf8

/-! ## Writing characters -/

/-- A number of sixteen bits in three octets. -/
def threeOctets (n : Nat) : Bytes :=
  [(0xE0 + n / 0x1000).toUInt8, (0x80 + n / 0x40 % 0x40).toUInt8, (0x80 + n % 0x40).toUInt8]

/-- The octets of a character. The null character takes two of them, and a character that is no
single code unit takes three for each of its surrogates. -/
def encodeChar (c : Char) : Bytes :=
  let n := c.toNat
  if n = 0 then [0xC0, 0x80]
  else if n < 0x80 then [n.toUInt8]
  else if n < 0x800 then [(0xC0 + n / 0x40).toUInt8, (0x80 + n % 0x40).toUInt8]
  else if n < 0x10000 then threeOctets n
  else threeOctets (0xD800 + (n - 0x10000) / 0x400) ++ threeOctets (0xDC00 + (n - 0x10000) % 0x400)

/-- The octets of a sequence of characters. -/
def encode (cs : List Char) : Bytes := cs.flatMap encodeChar

/-- The code units of a character. -/
def codeUnits (c : Char) : List UInt16 :=
  if c.toNat < 0x10000 then [c.toNat.toUInt16]
  else [(0xD800 + (c.toNat - 0x10000) / 0x400).toUInt16,
    (0xDC00 + (c.toNat - 0x10000) % 0x400).toUInt16]

theorem toNat_toUInt16 {n : Nat} (h : n < 65536) : n.toUInt16.toNat = n :=
  UInt16.toNat_ofNat_of_lt' h

theorem toNat_lt (c : Char) : c.toNat < 0x110000 := by
  have hvalid : c.toNat < 55296 ∨ 57343 < c.toNat ∧ c.toNat < 1114112 := c.valid
  omega

theorem encodeUnit_eq_threeOctets {n : Nat} (hlow : 0x800 ≤ n) (hhigh : n < 65536) :
    encodeUnit n.toUInt16 = threeOctets n := by
  rw [encodeUnit, toNat_toUInt16 hhigh, if_neg (by omega), if_neg (by omega), threeOctets]

/-- A character is written as its code units are. -/
theorem encodeUnits_codeUnits (c : Char) : encodeUnits (codeUnits c) = encodeChar c := by
  have hc := toNat_lt c
  unfold encodeChar codeUnits
  generalize c.toNat = n at hc
  dsimp only
  by_cases hlarge : n < 0x10000
  · rw [if_pos hlarge, encodeUnits, List.flatMap_singleton]
    by_cases hthree : 0x800 ≤ n
    · rw [encodeUnit_eq_threeOctets hthree hlarge, if_neg (by omega), if_neg (by omega),
        if_neg (by omega), if_pos hlarge]
    · rw [encodeUnit, toNat_toUInt16 hlarge]
      by_cases hzero : n = 0
      · subst hzero
        decide
      · by_cases hone : n < 0x80
        · rw [if_pos (by omega), if_neg hzero, if_pos hone]
        · rw [if_neg (by omega), if_pos (by omega), if_neg hzero, if_neg hone, if_pos (by omega)]
  · rw [if_neg hlarge, if_neg (by omega), if_neg (by omega), if_neg (by omega), if_neg hlarge,
      encodeUnits, List.flatMap_cons, List.flatMap_singleton,
      encodeUnit_eq_threeOctets (by omega) (by omega), encodeUnit_eq_threeOctets (by omega) (by omega)]

theorem encodeUnits_flatMap_codeUnits (cs : List Char) :
    encodeUnits (cs.flatMap codeUnits) = encode cs := by
  rw [encodeUnits, List.flatMap_assoc, encode]
  exact congrArg cs.flatMap (funext encodeUnits_codeUnits)

/-! ## Characters of code units -/

theorem charsOfUnits_single {u : Nat} (h : isHighSurrogate u = false) (us : List Nat) :
    charsOfUnits (u :: us) = unitChar u :: charsOfUnits us := by
  cases us with
  | nil => rfl
  | cons v us => rw [charsOfUnits, h, Bool.false_and, if_neg (by decide)]

theorem charsOfUnits_pair {u v : Nat} (hhigh : isHighSurrogate u = true)
    (hlow : isLowSurrogate v = true) (us : List Nat) :
    charsOfUnits (u :: v :: us) = pairChar u v :: charsOfUnits us := by
  rw [charsOfUnits, hhigh, hlow, Bool.true_and, if_pos rfl]

/-- The code units of a character stand for it, whatever follows them. -/
theorem charsOfUnits_codeUnits_append (c : Char) (us : List Nat) :
    charsOfUnits ((codeUnits c).map UInt16.toNat ++ us) = c :: charsOfUnits us := by
  have hvalid : c.toNat < 55296 ∨ 57343 < c.toNat ∧ c.toNat < 1114112 := c.valid
  unfold codeUnits
  split
  case isTrue hsingle =>
    have hhigh : isHighSurrogate c.toNat = false := by
      simp [isHighSurrogate]
      omega
    have hlow : isLowSurrogate c.toNat = false := by
      simp [isLowSurrogate]
      omega
    rw [List.map_singleton, toNat_toUInt16 hsingle, List.singleton_append,
      charsOfUnits_single hhigh, unitChar, hhigh, hlow, Bool.or_false, if_neg (by decide),
      Char.ofNat_toNat]
  case isFalse hpair =>
    rw [List.map_cons, List.map_singleton, toNat_toUInt16 (by omega), toNat_toUInt16 (by omega),
      List.cons_append, List.singleton_append, charsOfUnits_pair ?_ ?_, pairChar]
    · have hnumber : (0xD800 + (c.toNat - 0x10000) / 0x400 - 0xD800) * 0x400 +
          (0xDC00 + (c.toNat - 0x10000) % 0x400 - 0xDC00) + 0x10000 = c.toNat := by omega
      rw [hnumber, Char.ofNat_toNat]
    · simp [isHighSurrogate]
      omega
    · simp [isLowSurrogate]
      omega

theorem charsOfUnits_flatMap_codeUnits (cs : List Char) :
    charsOfUnits ((cs.flatMap codeUnits).map UInt16.toNat) = cs := by
  induction cs with
  | nil => rfl
  | cons c cs ih => rw [List.flatMap_cons, List.map_append, charsOfUnits_codeUnits_append, ih]

theorem decode_encode (cs : List Char) : decode (encode cs) = Text.ofChars cs := by
  rw [← encodeUnits_flatMap_codeUnits, decode_encodeUnits, textOfUnits,
    charsOfUnits_flatMap_codeUnits]

/-! ## Any string of octets -/

/-- A string of octets falls into units. The first octet tells how many octets a unit has. An octet
that opens no unit, or one of which octets are missing, stands for the replacement character. -/
inductive Splits : Bytes → List Nat → Prop where
  | nil : Splits [] []
  | one {a : UInt8} {rest : Bytes} {us : List Nat} :
      a.toNat < 0x80 → Splits rest us → Splits (a :: rest) (a.toNat :: us)
  | two {a b : UInt8} {rest : Bytes} {us : List Nat} :
      a.toNat / 0x20 = 6 → Splits rest us →
      Splits (a :: b :: rest) ((a.toNat % 0x20 * 0x40 + b.toNat % 0x40) :: us)
  | three {a b c : UInt8} {rest : Bytes} {us : List Nat} :
      a.toNat / 0x10 = 14 → Splits rest us →
      Splits (a :: b :: c :: rest)
        (((a.toNat % 0x10 * 0x40 + b.toNat % 0x40) * 0x40 + c.toNat % 0x40) :: us)
  | unreadable {a : UInt8} {rest : Bytes} {us : List Nat} :
      0x80 ≤ a.toNat → (a.toNat / 0x20 = 6 → rest = []) →
      (a.toNat / 0x10 = 14 → rest.length < 2) → Splits rest us → Splits (a :: rest) (0xFFFD :: us)

variable {data : Bytes} {us : List Nat}

theorem units_unreadable {a : UInt8} {rest : Bytes} (h : 0x80 ≤ a.toNat)
    (htwo : a.toNat / 0x20 = 6 → rest = []) (hthree : a.toNat / 0x10 = 14 → rest.length < 2) :
    units (a :: rest) = 0xFFFD :: units rest := by
  have hunit : unit1 a = 0xFFFD := if_neg (by rw [UInt8.lt_iff_toNat_lt]; exact Nat.not_lt.mpr h)
  match rest with
  | [] => simp [units, hunit]
  | [b] =>
    have htwo : opensTwo a = false := by simpa [opensTwo_eq] using htwo
    simp [units, htwo, hunit]
  | b :: c :: rest =>
    have htwo : opensTwo a = false := by simpa [opensTwo_eq] using htwo
    have hthree : opensThree a = false := by
      rw [opensThree_eq, decide_eq_false_iff_not]
      exact fun hopens => absurd (hthree hopens) (by simp)
    simp [units, htwo, hthree, hunit]

theorem Splits.eq_units (h : Splits data us) : us = units data := by
  induction h with
  | nil => rfl
  | one hone _ ih => rw [units_one hone, ih]
  | two htwo _ ih => rw [units_two htwo, ih, unit2, low6]
  | three hthree _ ih => rw [units_three hthree, ih, unit3, low6, low6]
  | unreadable h htwo hthree _ ih => rw [units_unreadable h htwo hthree, ih]

/-- An octet is a unit of its own if it does not open a longer one of which all octets are there. -/
theorem Splits.unit1 {a : UInt8} {rest : Bytes} (htwo : opensTwo a = true → rest = [])
    (hthree : opensThree a = true → rest.length < 2) (h : Splits rest us) :
    Splits (a :: rest) (unit1 a :: us) := by
  rw [opensTwo_eq, decide_eq_true_eq] at htwo
  rw [opensThree_eq, decide_eq_true_eq] at hthree
  unfold ModifiedUtf8.unit1
  split
  case isTrue hone => exact .one (UInt8.lt_iff_toNat_lt.mp hone) h
  case isFalse hone =>
    have hlarge : ¬ a.toNat < 0x80 := fun hlt => hone (UInt8.lt_iff_toNat_lt.mpr hlt)
    exact .unreadable (Nat.not_lt.mp hlarge) htwo hthree h

theorem splits_units (data : Bytes) : Splits data (units data) := by
  fun_induction units data with
  | case1 => exact .nil
  | case2 a => exact .unit1 (by simp) (by simp) .nil
  | case3 a b htwo =>
    rw [opensTwo_eq, decide_eq_true_eq] at htwo
    exact .two htwo .nil
  | case4 a b htwo ih => exact .unit1 (absurd · htwo) (by simp) ih
  | case5 a b c rest htwo ih =>
    rw [opensTwo_eq, decide_eq_true_eq] at htwo
    exact .two htwo ih
  | case6 a b c rest _ hthree ih =>
    rw [opensThree_eq, decide_eq_true_eq] at hthree
    exact .three hthree ih
  | case7 a b c rest htwo hthree ih => exact .unit1 (absurd · htwo) (absurd · hthree) ih

theorem splits_iff : Splits data us ↔ us = units data :=
  ⟨Splits.eq_units, fun h => h ▸ splits_units data⟩

/-- Every unit takes an octet at least. -/
theorem Splits.length_le (h : Splits data us) : us.length ≤ data.length := by
  induction h with
  | nil => exact Nat.le_refl 0
  | one _ _ ih => simpa using ih
  | two _ _ ih =>
    rw [List.length_cons, List.length_cons, List.length_cons]
    omega
  | three _ _ ih =>
    rw [List.length_cons, List.length_cons, List.length_cons, List.length_cons]
    omega
  | unreadable _ _ _ _ ih => simpa using ih

theorem isValidUTF8_ofChars (cs : List Char) : (Text.ofChars cs).toByteArray.IsValidUTF8 :=
  ⟨cs, rfl⟩

/-- Reading undoes writing: the octets of a sequence of characters are read as its UTF-8. Any other
string of octets falls into units in exactly one way, and what it is read as is valid UTF-8. Octets
below `0x80` are their own text, and the long way through the units gives the same. -/
theorem decode_inverts_encode :
    (∀ cs : List Char, decode (encode cs) = Text.ofChars cs) ∧
    (∀ data : Bytes, ∃ us : List Nat, (∀ vs, Splits data vs ↔ vs = us) ∧
      us.length ≤ data.length ∧ decode data = Text.ofChars (charsOfUnits us) ∧
      (decode data).toByteArray.IsValidUTF8) ∧
    ∀ data : Bytes, (∀ a ∈ data, a.toNat ≤ 0x7F) → decode data = data ∧ decodeUnits data = data := by
  refine ⟨decode_encode, ?_, ?_⟩
  · intro data
    have hdecode : decode data = Text.ofChars (charsOfUnits (units data)) :=
      decode_eq_decodeUnits data
    refine ⟨units data, fun vs => splits_iff, (splits_units data).length_le, hdecode, ?_⟩
    rw [hdecode]
    exact isValidUTF8_ofChars _
  · intro data hdata
    have hplain : decodeUnits data = data :=
      decodeUnits_plain fun a ha => Nat.lt_succ_of_le (hdata a ha)
    exact ⟨(decode_eq_decodeUnits data).trans hplain, hplain⟩

/-- The characters of every length, the null character among them. -/
def sampleChars : List Char := [Char.ofNat 0, 'A', 'é', '€', '😀']

theorem sample_decode_inverts_encode :
    encode sampleChars =
        [0xC0, 0x80, 0x41, 0xC3, 0xA9, 0xE2, 0x82, 0xAC, 0xED, 0xA0, 0xBD, 0xED, 0xB8, 0x80] ∧
      decode (encode sampleChars) = Text.ofChars sampleChars ∧
      (∀ a ∈ ([0x4A, 0x76, 0x6D] : Bytes), a.toNat ≤ 0x7F) ∧
      decode [0x4A, 0x76, 0x6D] = [0x4A, 0x76, 0x6D] := by
  obtain ⟨hread, -, hplain⟩ := decode_inverts_encode
  have hsmall : ∀ a ∈ ([0x4A, 0x76, 0x6D] : Bytes), a.toNat ≤ 0x7F := by simp
  exact ⟨by decide +kernel, hread sampleChars, hsmall, (hplain _ hsmall).1⟩

end JvmLinkage.Text.ModifiedUtf8
