import JvmLinkage.Cache.MessagePack
import JvmLinkage.Proofs.Octets

/-!
# Reading packed values back

A value that fits into the format is read back from its octets, whatever follows them. The octets of
a part are fewer than those of the whole, so that the depth allowed to a reader never runs out.
-/

namespace JvmLinkage.Packed

/-- The integers have sixty-four bits with a sign, and all sizes have thirty-two. Floating-point
numbers and extensions are left out: they are never written. -/
inductive Fits : Packed → Prop where
  | nil : Fits nil
  | bool (b : Bool) : Fits (bool b)
  | int {n : Int} (hlow : -0x8000000000000000 ≤ n) (hhigh : n < 0x8000000000000000) : Fits (int n)
  | text {t : Bytes} (hsize : t.length < 0x100000000) : Fits (text t)
  | binary {t : Bytes} (hsize : t.length < 0x100000000) : Fits (binary t)
  | array {items : List Packed} (hsize : items.length < 0x100000000)
    (hitems : ∀ v ∈ items, Fits v) : Fits (array items)
  | map {entries : List (Packed × Packed)} (hsize : entries.length < 0x100000000)
    (hkeys : ∀ e ∈ entries, Fits e.1) (hvalues : ∀ e ∈ entries, Fits e.2) : Fits (map entries)

/-! ## Which values fit -/

section Parts

variable {n : Int} {t : Bytes} {items : List Packed} {entries : List (Packed × Packed)}

theorem fits_int_iff :
    Fits (int n) ↔ -0x8000000000000000 ≤ n ∧ n < 0x8000000000000000 := by
  constructor
  · intro h
    cases h with
    | int hlow hhigh => exact ⟨hlow, hhigh⟩
  · rintro ⟨hlow, hhigh⟩
    exact .int hlow hhigh

theorem fits_text_iff : Fits (text t) ↔ t.length < 0x100000000 := by
  constructor
  · intro h
    cases h with
    | text hsize => exact hsize
  · exact .text

theorem fits_binary_iff : Fits (binary t) ↔ t.length < 0x100000000 := by
  constructor
  · intro h
    cases h with
    | binary hsize => exact hsize
  · exact .binary

theorem fits_array_iff :
    Fits (array items) ↔ items.length < 0x100000000 ∧ ∀ v ∈ items, Fits v := by
  constructor
  · intro h
    cases h with
    | array hsize hitems => exact ⟨hsize, hitems⟩
  · rintro ⟨hsize, hitems⟩
    exact .array hsize hitems

theorem fits_map_iff :
    Fits (map entries) ↔ entries.length < 0x100000000 ∧ ∀ e ∈ entries, Fits e.1 ∧ Fits e.2 := by
  constructor
  · intro h
    cases h with
    | map hsize hkeys hvalues => exact ⟨hsize, fun e he => ⟨hkeys e he, hvalues e he⟩⟩
  · rintro ⟨hsize, hentries⟩
    exact .map hsize (fun e he => (hentries e he).1) fun e he => (hentries e he).2

end Parts

mutual

/-- Whether a value fits, computed part by part. -/
def fits : Packed → Bool
  | nil | bool _ => true
  | int n => -0x8000000000000000 ≤ n && n < 0x8000000000000000
  | float _ | extension _ => false
  | text t | binary t => t.length < 0x100000000
  | array items => items.length < 0x100000000 && itemsFit items
  | map entries => entries.length < 0x100000000 && entriesFit entries

/-- Whether all items fit. -/
def itemsFit : List Packed → Bool
  | [] => true
  | item :: items => fits item && itemsFit items

/-- Whether all keys and values fit. -/
def entriesFit : List (Packed × Packed) → Bool
  | [] => true
  | (key, value) :: entries => fits key && fits value && entriesFit entries

end

mutual

theorem fits_iff : ∀ v : Packed, v.fits = true ↔ v.Fits
  | nil => by simp [fits, Fits.nil]
  | bool b => by simp [fits, Fits.bool b]
  | int n => by simp [fits, fits_int_iff]
  | float octets => by simp [fits]; nofun
  | text t => by simp [fits, fits_text_iff]
  | binary t => by simp [fits, fits_binary_iff]
  | extension octets => by simp [fits]; nofun
  | array items => by simp [fits, fits_array_iff, itemsFit_iff items]
  | map entries => by simp [fits, fits_map_iff, entriesFit_iff entries]

theorem itemsFit_iff : ∀ items : List Packed, itemsFit items = true ↔ ∀ v ∈ items, v.Fits
  | [] => by simp [itemsFit]
  | item :: items => by simp [itemsFit, fits_iff item, itemsFit_iff items]

theorem entriesFit_iff : ∀ entries : List (Packed × Packed),
    entriesFit entries = true ↔ ∀ e ∈ entries, e.1.Fits ∧ e.2.Fits
  | [] => by simp [entriesFit]
  | (key, value) :: entries => by
    simp [entriesFit, fits_iff key, fits_iff value, entriesFit_iff entries]

end

instance : DecidablePred Fits := fun v => decidable_of_iff (v.fits = true) (fits_iff v)

/-! ## Octets and numbers -/

theorem take?_append (bs rest : Bytes) : take? bs.length (bs ++ rest) = some (bs, rest) := by
  simp [take?]

theorem number?_ofNat (width n : Nat) (rest : Bytes) :
    number? width (Bytes.ofNat width n ++ rest) = some (n % 256 ^ width, rest) := by
  have htake : take? width (Bytes.ofNat width n ++ rest) = some (Bytes.ofNat width n, rest) := by
    simpa using take?_append (Bytes.ofNat width n) rest
  simp [number?, htake, Bytes.toNat_ofNat]

theorem number?_ofNat_of_lt {width n : Nat} (h : n < 256 ^ width) (rest : Bytes) :
    number? width (Bytes.ofNat width n ++ rest) = some (n, rest) := by
  rw [number?_ofNat, Nat.mod_eq_of_lt h]

theorem countedOctets?_append (kind : Bytes → Packed) {width : Nat} {t : Bytes}
    (h : t.length < 256 ^ width) (rest : Bytes) :
    countedOctets? kind width (Bytes.ofNat width t.length ++ t ++ rest) = some (kind t, rest) := by
  simp [countedOctets?, counted?, List.append_assoc, number?_ofNat_of_lt h, take?_append]

theorem octets?_append (kind : Bytes → Packed) (t rest : Bytes) :
    octets? kind t.length (t ++ rest) = some (kind t, rest) := by
  simp [octets?, take?_append]

theorem unsigned?_ofNat {width n : Nat} (h : n < 256 ^ width) (rest : Bytes) :
    unsigned? width (Bytes.ofNat width n ++ rest) = some (int n, rest) := by
  simp [unsigned?, number?_ofNat_of_lt h]

theorem signed?_ofNat (width n : Nat) (rest : Bytes) :
    signed? width (Bytes.ofNat width n ++ rest) = some (int (asSigned width (n % 256 ^ width)), rest) := by
  simp [signed?, number?_ofNat]

/-! ## Marks -/

theorem toNat_mark (base : UInt8) {n : Nat} (h : base.toNat + n < 256) :
    (base + n.toUInt8).toNat = base.toNat + n := by
  have hsize : n < UInt8.size := Nat.lt_of_le_of_lt (Nat.le_add_left n base.toNat) h
  rw [UInt8.toNat_add, UInt8.toNat_ofNat_of_lt' hsize, Nat.mod_eq_of_lt h]

theorem isArrayMark_iff {b : UInt8} :
    isArrayMark b = true ↔
      0x90 ≤ b.toNat ∧ b.toNat < 0xA0 ∨ b.toNat = 0xDC ∨ b.toNat = 0xDD := by
  simp [isArrayMark, UInt8.le_iff_toNat_le, UInt8.lt_iff_toNat_lt, ← UInt8.toNat_inj, or_assoc]

theorem isMapMark_iff {b : UInt8} :
    isMapMark b = true ↔
      0x80 ≤ b.toNat ∧ b.toNat < 0x90 ∨ b.toNat = 0xDE ∨ b.toNat = 0xDF := by
  simp [isMapMark, UInt8.le_iff_toNat_le, UInt8.lt_iff_toNat_lt, ← UInt8.toNat_inj, or_assoc]

variable {b : UInt8} {n depth : Nat} {data rest rest' : Bytes}

theorem readWithin_scalar (hplain : b.toNat < 0x80 ∨ 0xA0 ≤ b.toNat)
    (hmark : b.toNat < 0xDC ∨ 0xE0 ≤ b.toNat) :
    readWithin (depth + 1) (b :: data) = scalar? b data := by
  have harray : isArrayMark b = false := by
    rw [Bool.eq_false_iff, ne_eq, isArrayMark_iff]
    omega
  have hmap : isMapMark b = false := by
    rw [Bool.eq_false_iff, ne_eq, isMapMark_iff]
    omega
  simp [readWithin, harray, hmap]

theorem readWithin_array {items : List Packed} (hmark : isArrayMark b = true)
    (hsize : arraySize? b data = some (n, rest))
    (hitems : items? (readWithin depth) n rest = some (items, rest')) :
    readWithin (depth + 1) (b :: data) = some (array items, rest') := by
  simp [readWithin, hmark, hsize, hitems]

theorem readWithin_map {entries : List (Packed × Packed)} (harray : isArrayMark b = false)
    (hmark : isMapMark b = true) (hsize : mapSize? b data = some (n, rest))
    (hentries : entries? (readWithin depth) n rest = some (entries, rest')) :
    readWithin (depth + 1) (b :: data) = some (map entries, rest') := by
  simp [readWithin, harray, hmark, hsize, hentries]

theorem exists_arrayHead (h : n < 0x100000000) :
    ∃ b bs, arrayHead n = b :: bs ∧ isArrayMark b = true ∧
      ∀ rest, arraySize? b (bs ++ rest) = some (n, rest) := by
  unfold arrayHead
  split
  case isTrue hsmall =>
    have hb := toNat_mark 0x90 (n := n) (by simp; omega)
    refine ⟨_, [], rfl, ?_, fun rest => ?_⟩
    · rw [isArrayMark_iff, hb]
      simp only [UInt8.reduceToNat]
      omega
    · simp [arraySize?, UInt8.le_iff_toNat_le, UInt8.lt_iff_toNat_lt, hb]
      omega
  case isFalse =>
    split
    · exact ⟨_, _, rfl, rfl, number?_ofNat_of_lt (by omega)⟩
    · exact ⟨_, _, rfl, rfl, number?_ofNat_of_lt (by omega)⟩

theorem exists_mapHead (h : n < 0x100000000) :
    ∃ b bs, mapHead n = b :: bs ∧ isArrayMark b = false ∧ isMapMark b = true ∧
      ∀ rest, mapSize? b (bs ++ rest) = some (n, rest) := by
  unfold mapHead
  split
  case isTrue hsmall =>
    have hb := toNat_mark 0x80 (n := n) (by simp; omega)
    refine ⟨_, [], rfl, ?_, ?_, fun rest => ?_⟩
    · rw [Bool.eq_false_iff, ne_eq, isArrayMark_iff, hb]
      simp only [UInt8.reduceToNat]
      omega
    · rw [isMapMark_iff, hb]
      simp only [UInt8.reduceToNat]
      omega
    · simp [mapSize?, UInt8.le_iff_toNat_le, UInt8.lt_iff_toNat_lt, hb]
      omega
  case isFalse =>
    split
    · exact ⟨_, _, rfl, rfl, rfl, number?_ofNat_of_lt (by omega)⟩
    · exact ⟨_, _, rfl, rfl, rfl, number?_ofNat_of_lt (by omega)⟩

/-! ## Scalars -/

theorem scalar?_small (h : b.toNat < 0x80) : scalar? b data = some (int b.toNat, data) := by
  have hb : b < 0x80 := UInt8.lt_iff_toNat_lt.mpr h
  simp [scalar?, hb]

theorem scalar?_negative (h : 0xE0 ≤ b.toNat) :
    scalar? b data = some (int (asSigned 1 b.toNat), data) := by
  have hb : ¬ b < 0x80 := by
    rw [UInt8.lt_iff_toNat_lt]
    simp only [UInt8.reduceToNat]
    omega
  have hb' : 0xE0 ≤ b := UInt8.le_iff_toNat_le.mpr h
  simp [scalar?, hb, hb']

theorem scalar?_text (h : 0xA0 ≤ b.toNat) (h' : b.toNat < 0xC0) :
    scalar? b data = octets? text (b.toNat - 0xA0) data := by
  have hb : ¬ b < 0x80 := by
    rw [UInt8.lt_iff_toNat_lt]
    simp only [UInt8.reduceToNat]
    omega
  have hb' : ¬ 0xE0 ≤ b := by
    rw [UInt8.le_iff_toNat_le]
    simp only [UInt8.reduceToNat]
    omega
  have hlow : 0xA0 ≤ b := UInt8.le_iff_toNat_le.mpr h
  have hhigh : b < 0xC0 := UInt8.lt_iff_toNat_lt.mpr h'
  simp only [scalar?, hb, hb', hlow, hhigh, if_false, decide_true, Bool.and_self, if_true]

theorem read_encodeInt {k : Int} (hlow : -0x8000000000000000 ≤ k) (hhigh : k < 0x8000000000000000)
    (rest : Bytes) : readWithin (depth + 1) (encodeInt k ++ rest) = some (int k, rest) := by
  have hone (n : Nat) : Bytes.ofNat 1 n = [n.toUInt8] := rfl
  have hoctet (n : Nat) : n.toUInt8.toNat = n % 256 := UInt8.toNat_ofNat'
  -- The lowest octets of a negative number are those of its two's complement.
  have hnegative (width : Nat) (hwidth : width = 1 ∨ width = 2 ∨ width = 4 ∨ width = 8)
      (hk : -(256 ^ width : Nat) ≤ 2 * k) (hk' : 2 * k < (256 ^ width : Nat)) :
      signed? width (Bytes.ofNat width (k % 0x10000000000000000).toNat ++ rest) =
        some (int k, rest) := by
    rw [signed?_ofNat, asSigned, Int.bmod]
    rcases hwidth with rfl | rfl | rfl | rfl <;> simp at * <;> split <;> omega
  have hpositive (width : Nat) (hk : 0 ≤ k) (hk' : k < (256 ^ width : Nat)) :
      unsigned? width (Bytes.ofNat width (k % 0x10000000000000000).toNat ++ rest) =
        some (int k, rest) := by
    have hmod : k % 0x10000000000000000 = k := by omega
    rw [hmod, unsigned?_ofNat (by omega)]
    simp; omega
  unfold encodeInt
  dsimp only
  split
  case isTrue hnonneg =>
    split
    · have hmark : (k % 0x10000000000000000).toNat.toUInt8.toNat = k.toNat := by
        rw [hoctet]
        omega
      rw [hone, List.singleton_append, readWithin_scalar (by omega) (by omega),
        scalar?_small (by omega), hmark, Int.toNat_of_nonneg hnonneg]
    split
    · exact (readWithin_scalar (by decide) (by decide)).trans (hpositive 1 hnonneg (by omega))
    split
    · exact (readWithin_scalar (by decide) (by decide)).trans (hpositive 2 hnonneg (by omega))
    split
    · exact (readWithin_scalar (by decide) (by decide)).trans (hpositive 4 hnonneg (by omega))
    · exact (readWithin_scalar (by decide) (by decide)).trans
        (hnegative 8 (by simp) (by omega) (by omega))
  case isFalse hneg =>
    split
    · have hmark : (k % 0x10000000000000000).toNat.toUInt8.toNat = (k + 256).toNat := by
        rw [hoctet]
        omega
      have hsigned : asSigned 1 (k + 256).toNat = k := by
        rw [asSigned, Int.bmod]
        simp
        split <;> omega
      rw [hone, List.singleton_append, readWithin_scalar (by omega) (by omega),
        scalar?_negative (by omega), hmark, hsigned]
    split
    · exact (readWithin_scalar (by decide) (by decide)).trans
        (hnegative 1 (by simp) (by omega) (by omega))
    split
    · exact (readWithin_scalar (by decide) (by decide)).trans
        (hnegative 2 (by simp) (by omega) (by omega))
    split
    · exact (readWithin_scalar (by decide) (by decide)).trans
        (hnegative 4 (by simp) (by omega) (by omega))
    · exact (readWithin_scalar (by decide) (by decide)).trans
        (hnegative 8 (by simp) (by omega) (by omega))

theorem read_text {t : Bytes} (h : t.length < 0x100000000) (rest : Bytes) :
    readWithin (depth + 1) (textHead t.length ++ t ++ rest) = some (text t, rest) := by
  unfold textHead
  split
  case isTrue hsmall =>
    have hb := toNat_mark 0xA0 (n := t.length) (by simp; omega)
    simp only [UInt8.reduceToNat] at hb
    have hsize : (0xA0 + t.length.toUInt8).toNat - 0xA0 = t.length := by omega
    rw [List.singleton_append, List.cons_append, readWithin_scalar (by omega) (by omega),
      scalar?_text (by omega) (by omega), hsize]
    exact octets?_append text t rest
  case isFalse =>
    split
    · exact (readWithin_scalar (by decide) (by decide)).trans (countedOctets?_append text (by omega) rest)
    split
    · exact (readWithin_scalar (by decide) (by decide)).trans (countedOctets?_append text (by omega) rest)
    · exact (readWithin_scalar (by decide) (by decide)).trans (countedOctets?_append text (by omega) rest)

theorem read_binary {t : Bytes} (h : t.length < 0x100000000) (rest : Bytes) :
    readWithin (depth + 1) (binaryHead t.length ++ t ++ rest) = some (binary t, rest) := by
  unfold binaryHead
  split
  · exact (readWithin_scalar (by decide) (by decide)).trans (countedOctets?_append binary (by omega) rest)
  split
  · exact (readWithin_scalar (by decide) (by decide)).trans (countedOctets?_append binary (by omega) rest)
  · exact (readWithin_scalar (by decide) (by decide)).trans (countedOctets?_append binary (by omega) rest)

/-! ## Collections -/

/-- The value is read from its octets if at least as much depth is allowed as it has octets. -/
def Readable (v : Packed) : Prop :=
  ∀ (depth : Nat) (rest : Bytes), (encode v).length ≤ depth →
    readWithin depth (encode v ++ rest) = some (v, rest)

theorem readable_of_read {v : Packed}
    (h : ∀ depth rest, readWithin (depth + 1) (encode v ++ rest) = some (v, rest)) : v.Readable := by
  rintro (_ | depth) rest hdepth
  · -- Nothing is read from no octets.
    have hnil : encode v = [] := List.eq_nil_of_length_eq_zero (Nat.le_zero.mp hdepth)
    have hread := h 0 []
    simp [hnil, readWithin] at hread
  · exact h depth rest

theorem items?_encodeItems {items : List Packed} (h : ∀ v ∈ items, v.Readable)
    (hdepth : (encodeItems items).length ≤ depth) (rest : Bytes) :
    items? (readWithin depth) items.length (encodeItems items ++ rest) = some (items, rest) := by
  induction items with
  | nil => simp [encodeItems, items?]
  | cons v items ih =>
    rw [encodeItems, List.length_append] at hdepth
    have hfirst := h v (by simp) depth (encodeItems items ++ rest) (by omega)
    have hrest := ih (fun u hu => h u (by simp [hu])) (by omega)
    simp [encodeItems, items?, hfirst, hrest]

theorem entries?_encodeEntries {entries : List (Packed × Packed)}
    (hkeys : ∀ e ∈ entries, e.1.Readable) (hvalues : ∀ e ∈ entries, e.2.Readable)
    (hdepth : (encodeEntries entries).length ≤ depth) (rest : Bytes) :
    entries? (readWithin depth) entries.length (encodeEntries entries ++ rest) =
      some (entries, rest) := by
  induction entries with
  | nil => simp [encodeEntries, entries?]
  | cons e entries ih =>
    obtain ⟨key, value⟩ := e
    simp only [encodeEntries, List.length_append] at hdepth
    have hkey := hkeys (key, value) (by simp) depth
      (encode value ++ (encodeEntries entries ++ rest)) (by dsimp only; omega)
    have hvalue := hvalues (key, value) (by simp) depth (encodeEntries entries ++ rest)
      (by dsimp only; omega)
    have hrest := ih (fun u hu => hkeys u (by simp [hu])) (fun u hu => hvalues u (by simp [hu]))
      (by omega)
    simp_all [encodeEntries, entries?]

/-- A value that fits is read from its octets. -/
theorem Fits.readable {v : Packed} (h : v.Fits) : v.Readable := by
  induction h with
  | nil => exact readable_of_read fun depth rest => rfl
  | bool b => exact readable_of_read fun depth rest => by cases b <;> rfl
  | int hlow hhigh => exact readable_of_read fun depth rest => read_encodeInt hlow hhigh rest
  | text hsize => exact readable_of_read fun depth rest => read_text hsize rest
  | binary hsize => exact readable_of_read fun depth rest => read_binary hsize rest
  | @array items hsize hitems ih =>
    intro depth rest hdepth
    obtain ⟨b, bs, hhead, hmark, hread⟩ := exists_arrayHead hsize
    simp only [encode, hhead, List.cons_append, List.length_cons, List.length_append] at hdepth ⊢
    obtain ⟨depth, rfl⟩ : ∃ d, depth = d + 1 := ⟨depth - 1, by omega⟩
    rw [List.append_assoc]
    exact readWithin_array hmark (hread _) (items?_encodeItems ih (by omega) rest)
  | @map entries hsize hkeys hvalues ihkeys ihvalues =>
    intro depth rest hdepth
    obtain ⟨b, bs, hhead, harray, hmark, hread⟩ := exists_mapHead hsize
    simp only [encode, hhead, List.cons_append, List.length_cons, List.length_append] at hdepth ⊢
    obtain ⟨depth, rfl⟩ : ∃ d, depth = d + 1 := ⟨depth - 1, by omega⟩
    rw [List.append_assoc]
    exact readWithin_map harray hmark (hread _)
      (entries?_encodeEntries ihkeys ihvalues (by omega) rest)

/-- Reading gives back what was written, and leaves what follows it. -/
theorem read?_encode {v : Packed} (h : v.Fits) (rest : Bytes) :
    read? (encode v ++ rest) = some (v, rest) := by
  refine h.readable _ rest ?_
  rw [List.length_append]
  omega

end JvmLinkage.Packed
