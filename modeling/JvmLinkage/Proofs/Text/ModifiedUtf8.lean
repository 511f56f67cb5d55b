import JvmLinkage.Text.ModifiedUtf8

/-!
# Writing and reading modified UTF-8

Code units are written in one to three octets and read back one by one. The short way taken for
plain octets gives what the long way gives. A text in which every character takes one code unit is
read back from its own octets.
-/

namespace JvmLinkage.Text.ModifiedUtf8

/-- The octets of a code unit. The unit zero takes two octets, so that none of them is zero. -/
def encodeUnit (u : UInt16) : Bytes :=
  let n := u.toNat
  if 0 < n ∧ n < 0x80 then [n.toUInt8]
  else if n < 0x800 then [(0xC0 + n / 0x40).toUInt8, (0x80 + n % 0x40).toUInt8]
  else [(0xE0 + n / 0x1000).toUInt8, (0x80 + n / 0x40 % 0x40).toUInt8, (0x80 + n % 0x40).toUInt8]

/-- The octets of a sequence of code units. -/
def encodeUnits (us : List UInt16) : Bytes := us.flatMap encodeUnit

/-- The text that a sequence of code units stands for. -/
def textOfUnits (us : List UInt16) : Text := Text.ofChars (charsOfUnits (us.map UInt16.toNat))

/-! ## Reading the first unit -/

theorem opensTwo_eq (a : UInt8) : opensTwo a = decide (a.toNat / 0x20 = 6) := by
  have h : ∀ n < 256, opensTwo n.toUInt8 = decide (n / 0x20 = 6) := by decide +kernel
  simpa using h a.toNat a.toNat_lt

theorem opensThree_eq (a : UInt8) : opensThree a = decide (a.toNat / 0x10 = 14) := by
  have h : ∀ n < 256, opensThree n.toUInt8 = decide (n / 0x10 = 14) := by decide +kernel
  simpa using h a.toNat a.toNat_lt

theorem units_one {a : UInt8} (h : a.toNat < 0x80) (rest : Bytes) :
    units (a :: rest) = a.toNat :: units rest := by
  have htwo : opensTwo a = false := by
    rw [opensTwo_eq, decide_eq_false_iff_not]
    omega
  have hthree : opensThree a = false := by
    rw [opensThree_eq, decide_eq_false_iff_not]
    omega
  have hunit : unit1 a = a.toNat := if_pos (UInt8.lt_iff_toNat_lt.mpr h)
  match rest with
  | [] => simp [units, hunit]
  | [b] => simp [units, htwo, hunit]
  | b :: c :: rest => simp [units, htwo, hthree, hunit]

theorem units_two {a : UInt8} (h : a.toNat / 0x20 = 6) (b : UInt8) (rest : Bytes) :
    units (a :: b :: rest) = unit2 a b :: units rest := by
  have htwo : opensTwo a = true := by simpa [opensTwo_eq] using h
  cases rest with
  | nil => simp [units, htwo]
  | cons c rest => simp [units, htwo]

theorem units_three {a : UInt8} (h : a.toNat / 0x10 = 14) (b c : UInt8) (rest : Bytes) :
    units (a :: b :: c :: rest) = unit3 a b c :: units rest := by
  have htwo : opensTwo a = false := by
    rw [opensTwo_eq, decide_eq_false_iff_not]
    omega
  have hthree : opensThree a = true := by simpa [opensThree_eq] using h
  simp [units, htwo, hthree]

theorem toNat_toUInt8 {n : Nat} (h : n < 256) : n.toUInt8.toNat = n :=
  UInt8.toNat_ofNat_of_lt' h

/-- A unit is read back from its octets, and the octets after them are read as if on their own. -/
theorem units_encodeUnit_append (u : UInt16) (rest : Bytes) :
    units (encodeUnit u ++ rest) = u.toNat :: units rest := by
  have hu : u.toNat < 65536 := u.toNat_lt
  unfold encodeUnit
  generalize u.toNat = n at hu
  dsimp only
  have hlow : (0x80 + n % 0x40).toUInt8.toNat = 0x80 + n % 0x40 := toNat_toUInt8 (by omega)
  split
  case isTrue hone =>
    have ha : n.toUInt8.toNat = n := toNat_toUInt8 (by omega)
    rw [List.singleton_append, units_one (by omega), ha]
  case isFalse hone =>
    split
    case isTrue htwo =>
      have ha : (0xC0 + n / 0x40).toUInt8.toNat = 0xC0 + n / 0x40 := toNat_toUInt8 (by omega)
      rw [List.cons_append, List.singleton_append, units_two (by omega), unit2, low6, ha, hlow]
      congr 1
      omega
    case isFalse htwo =>
      have ha : (0xE0 + n / 0x1000).toUInt8.toNat = 0xE0 + n / 0x1000 := toNat_toUInt8 (by omega)
      have hb : (0x80 + n / 0x40 % 0x40).toUInt8.toNat = 0x80 + n / 0x40 % 0x40 :=
        toNat_toUInt8 (by omega)
      rw [List.cons_append, List.cons_append, List.singleton_append, units_three (by omega), unit3,
        low6, low6, ha, hb, hlow]
      congr 1
      omega

theorem units_encodeUnits (us : List UInt16) : units (encodeUnits us) = us.map UInt16.toNat := by
  induction us with
  | nil => rfl
  | cons u us ih =>
    rw [encodeUnits, List.flatMap_cons, units_encodeUnit_append]
    exact congrArg (u.toNat :: ·) ih

/-! ## The short way -/

theorem charsOfUnits_plain_cons {u : Nat} (h : u < 0x80) (us : List Nat) :
    charsOfUnits (u :: us) = Char.ofNat u :: charsOfUnits us := by
  have hhigh : isHighSurrogate u = false := by
    simp [isHighSurrogate]
    omega
  have hlow : isLowSurrogate u = false := by
    simp [isLowSurrogate]
    omega
  cases us with
  | nil => simp [charsOfUnits, unitChar, hhigh, hlow]
  | cons v us => simp [charsOfUnits, unitChar, hhigh, hlow]

theorem utf8EncodeChar_plain {a : UInt8} (h : a.toNat < 0x80) :
    String.utf8EncodeChar (Char.ofNat a.toNat) = [a] := by
  have hplain : ∀ n < 0x80, String.utf8EncodeChar (Char.ofNat n) = [n.toUInt8] := by decide
  simpa using hplain a.toNat h

theorem decodeUnits_plain {data : Bytes} (h : ∀ a ∈ data, a.toNat < 0x80) :
    decodeUnits data = data := by
  induction data with
  | nil => rfl
  | cons a data ih =>
    have ha : a.toNat < 0x80 := h a (List.mem_cons_self ..)
    have hdata : decodeUnits data = data := ih fun b hb => h b (List.mem_cons_of_mem _ hb)
    rw [decodeUnits, units_one ha, charsOfUnits_plain_cons ha, Text.ofChars, List.flatMap_cons,
      utf8EncodeChar_plain ha, List.singleton_append]
    exact congrArg (a :: ·) hdata

theorem decode_eq_decodeUnits (data : Bytes) : decode data = decodeUnits data := by
  unfold decode
  split
  case isTrue h =>
    have hplain : ∀ a ∈ data, a.toNat < 0x80 := by
      simpa [UInt8.lt_iff_toNat_lt] using h
    exact (decodeUnits_plain hplain).symm
  case isFalse => rfl

theorem decode_encodeUnits (us : List UInt16) : decode (encodeUnits us) = textOfUnits us := by
  rw [decode_eq_decodeUnits, decodeUnits, units_encodeUnits, textOfUnits]

/-! ## Characters of one code unit -/

theorem units_utf8EncodeChar_append {c : Char} (h : c.toNat < 65536) (rest : Bytes) :
    units (String.utf8EncodeChar c ++ rest) = c.toNat :: units rest := by
  change c.val.toNat < 65536 at h
  unfold String.utf8EncodeChar Char.toNat
  generalize c.val.toNat = n at h
  have hlow : (UInt8.ofNat (n % 64 + 128)).toNat = n % 64 + 128 := toNat_toUInt8 (by omega)
  dsimp only
  split
  case isTrue hone =>
    have ha : (UInt8.ofNat n).toNat = n := toNat_toUInt8 (by omega)
    rw [List.singleton_append, units_one (by omega), ha]
  case isFalse hone =>
    split
    case isTrue htwo =>
      have ha : (UInt8.ofNat (n / 64 % 32 + 192)).toNat = n / 64 % 32 + 192 :=
        toNat_toUInt8 (by omega)
      rw [List.cons_append, List.singleton_append, units_two (by omega), unit2, low6, ha, hlow]
      congr 1
      omega
    case isFalse htwo =>
      have ha : (UInt8.ofNat (n / 4096 % 16 + 224)).toNat = n / 4096 % 16 + 224 :=
        toNat_toUInt8 (by omega)
      have hb : (UInt8.ofNat (n / 64 % 64 + 128)).toNat = n / 64 % 64 + 128 :=
        toNat_toUInt8 (by omega)
      rw [if_pos (by omega), List.cons_append, List.cons_append, List.singleton_append,
        units_three (by omega), unit3, low6, low6, ha, hb, hlow]
      congr 1
      omega

theorem units_ofChars {cs : List Char} (h : ∀ c ∈ cs, c.toNat < 65536) :
    units (Text.ofChars cs) = cs.map Char.toNat := by
  induction cs with
  | nil => rfl
  | cons c cs ih =>
    have htail : units (Text.ofChars cs) = cs.map Char.toNat := ih fun d hd => h d (by simp [hd])
    rw [Text.ofChars, List.flatMap_cons, units_utf8EncodeChar_append (h c (by simp)), List.map_cons]
    exact congrArg (c.toNat :: ·) htail

/-- No character is a surrogate, so that none pairs up with its neighbour. -/
theorem charsOfUnits_map_toNat (cs : List Char) : charsOfUnits (cs.map Char.toNat) = cs := by
  have hchar (c : Char) : isHighSurrogate c.toNat = false ∧ isLowSurrogate c.toNat = false := by
    have hvalid : c.toNat < 55296 ∨ 57343 < c.toNat ∧ c.toNat < 1114112 := c.valid
    constructor
    · simp [isHighSurrogate]
      omega
    · simp [isLowSurrogate]
      omega
  induction cs with
  | nil => rfl
  | cons c cs ih =>
    obtain ⟨hhigh, hlow⟩ := hchar c
    have hunit : unitChar c.toNat = c := by simp [unitChar, hhigh, hlow]
    cases cs with
    | nil => simp [charsOfUnits, hunit]
    | cons d cs =>
      simp only [List.map_cons] at ih ⊢
      rw [charsOfUnits, hhigh, Bool.false_and, if_neg (by decide), hunit, ih]

theorem decode_ofChars {cs : List Char} (h : ∀ c ∈ cs, c.toNat < 65536) :
    decode (Text.ofChars cs) = Text.ofChars cs := by
  rw [decode_eq_decodeUnits, decodeUnits, units_ofChars h, charsOfUnits_map_toNat]

end JvmLinkage.Text.ModifiedUtf8

namespace JvmLinkage.Text

/-- The text stands for itself in a class file: every character takes one code unit, and its length
fits in sixteen bits. -/
def Plain (t : Text) : Prop :=
  t.length < 65536 ∧ ∃ cs : List Char, (∀ c ∈ cs, c.toNat < 65536) ∧ t = ofChars cs

theorem ofString_eq_ofChars (s : String) : ofString s = ofChars s.toList := by
  rw [ofString, String.toUTF8_eq_toByteArray, ← String.utf8Encode_toList, List.utf8Encode]
  simp [ofChars]

theorem plain_ofString {s : String} (h : s.toList.all fun c => c.toNat < 65536)
    (hlength : (ofString s).length < 65536) : (ofString s).Plain :=
  ⟨hlength, s.toList, by simpa using h, ofString_eq_ofChars s⟩

theorem Plain.decode {t : Text} (h : t.Plain) : ModifiedUtf8.decode t = t := by
  obtain ⟨-, cs, hcs, rfl⟩ := h
  exact ModifiedUtf8.decode_ofChars hcs

end JvmLinkage.Text
