import JvmLinkage.Proofs.ClassFile.Layout

/-!
# Reading back constant pools

The constants of a pool are read one by one as they were written, and every index gives what stands
there: a constant, the second half of a wide one, or nothing.
-/

namespace JvmLinkage

open Reader Text.ModifiedUtf8

/-! ## One constant -/

theorem Tag.ofCode?_code (t : Tag) : ofCode? t.code = some t := by
  cases t <;> rfl

theorem reads_indices (f : UInt16 → UInt16 → Constant) (i j : UInt16) :
    Reads (do return f (← u2) (← u2)) (u2Bytes i ++ u2Bytes j) (f i j) :=
  (Reads.u2 i).bind ((Reads.u2 j).last .pure)

theorem Constant.reads_numbers {c : Constant} (h : c.tag ≠ .utf8) :
    Reads (readBody c.tag) c.numbers c := by
  cases c with
  | utf8 text => exact absurd rfl h
  | integer bits => exact (Reads.u4 bits).map _
  | float bits => exact (Reads.u4 bits).map _
  | long bits => exact (Reads.u8 bits).map _
  | double bits => exact (Reads.u8 bits).map _
  | classRef name => exact (Reads.u2 name).map _
  | string text => exact (Reads.u2 text).map _
  | fieldRef owner nameAndType => exact reads_indices fieldRef owner nameAndType
  | methodRef owner nameAndType => exact reads_indices methodRef owner nameAndType
  | interfaceMethodRef owner nameAndType =>
    exact reads_indices interfaceMethodRef owner nameAndType
  | nameAndType name descriptor => exact reads_indices nameAndType name descriptor
  | methodHandle kind reference =>
    exact (Reads.u1 kind).bind ((Reads.u2 reference).last .pure)
  | methodType descriptor => exact (Reads.u2 descriptor).map _
  | dynamic bootstrap nameAndType => exact reads_indices dynamic bootstrap nameAndType
  | invokeDynamic bootstrap nameAndType => exact reads_indices invokeDynamic bootstrap nameAndType
  | moduleRef name => exact (Reads.u2 name).map _
  | packageRef name => exact (Reads.u2 name).map _

theorem Constant.reads_text {units : List UInt16} (h : (encodeUnits units).length < 65536) :
    Reads (readBody .utf8) (u2Bytes (encodeUnits units).length.toUInt16 ++ encodeUnits units)
      (utf8 (textOfUnits units)) := by
  have hlength : (encodeUnits units).length.toUInt16.toNat = (encodeUnits units).length :=
    UInt16.toNat_ofNat_of_lt' h
  have hdata := Reads.bytes (encodeUnits units)
  rw [← hlength] at hdata
  refine ((Reads.u2 _).within _).bind ((hdata.within _).last ?_)
  rw [decode_encodeUnits]
  exact .pure

/-- Constants are announced by the octets that readers take them for. -/
theorem Constant.mark_eq_code (c : Constant) : c.mark = c.tag.code := by
  cases c <;> rfl

/-- The announced kind tells how to go on, so that each constant is read as what it is. -/
theorem reads_announced {octets : Bytes} {c : Constant}
    (h : Reads (Constant.readBody c.tag) octets c) : Reads Constant.read (c.mark :: octets) c := by
  refine ((Reads.u1 c.mark).within _).bind ?_
  rw [c.mark_eq_code, Tag.ofCode?_code]
  exact h

namespace ConstantLayout

theorem reads_octets (c : ConstantLayout) : Reads Constant.read c.octets c.value := by
  cases c with
  | text units fits => exact reads_announced (c := .utf8 _) (Constant.reads_text fits)
  | numeric constant not_text => exact reads_announced (Constant.reads_numbers not_text)

/-! ## The constants in order -/

variable {cs : List ConstantLayout} {n : Nat}

theorem eq_nil_of_fills_zero (h : Fills cs 0) : cs = [] := by
  cases cs with
  | nil => rfl
  | cons c cs => exact absurd h.1 (Nat.lt_irrefl 0)

theorem width_pos (c : ConstantLayout) : 0 < c.width := by
  unfold width
  split <;> decide

@[simp] theorem length_slots (c : ConstantLayout) : c.slots.length = c.width := by
  unfold slots width
  split <;> rfl

theorem le_length_of_fills (h : Fills cs n) : n ≤ (cs.flatMap slots).length := by
  induction cs generalizing n with
  | nil => exact Nat.le_of_eq h
  | cons c cs ih =>
    have hrest := ih h.2
    rw [List.flatMap_cons, List.length_append, length_slots]
    omega

/-- Constants fill the indices that they take together, so that every list of them that can be
counted makes a pool. -/
theorem fills_length_slots (cs : List ConstantLayout) : Fills cs (cs.flatMap slots).length := by
  induction cs with
  | nil => rfl
  | cons c cs ih =>
    rw [List.flatMap_cons, List.length_append, length_slots]
    refine ⟨Nat.add_pos_left c.width_pos _, ?_⟩
    rwa [Nat.add_sub_cancel_left]

/-- Reading as many indices as there are gives the constants, whichever index is the first. -/
theorem reads_slots (h : Fills cs n) (index : Nat) :
    Reads (ConstantPool.readSlots index n) (cs.flatMap octets) ((cs.flatMap slots).take n) := by
  induction cs generalizing index n with
  | nil =>
    cases h
    exact .pure
  | cons c cs ih =>
    obtain ⟨hpos, hrest⟩ := h
    have hc := c.reads_octets.within (.item "constant pool entry" index)
    rw [List.flatMap_cons, List.flatMap_cons]
    -- One index is filled by one constant, wide or not; two or more depend on how wide it is.
    match n, hpos, hrest with
    | 1, _, hrest =>
      rw [Nat.sub_eq_zero_of_le c.width_pos] at hrest
      have hslots : (c.slots ++ cs.flatMap slots).take 1 = [some c.value] := by
        unfold slots
        split <;> rfl
      rw [hslots, eq_nil_of_fills_zero hrest]
      exact hc.bind .pure
    | n + 2, _, hrest =>
      refine hc.bind ?_
      by_cases hwide : c.value.isWide
      case pos =>
        have hfills : Fills cs n := by simpa [width, hwide] using hrest
        have hread := (ih hfills (index + 2)).map fun rest => some c.value :: none :: rest
        simpa [slots, hwide] using hread
      case neg =>
        have hfills : Fills cs (n + 1) := by simpa [width, hwide] using hrest
        have hread := (ih hfills (index + 1)).map fun rest => some c.value :: rest
        simpa [slots, hwide] using hread

/-! ## Constants by position -/

theorem startingAt?_eq_join (cs : List ConstantLayout) (n : Nat) :
    startingAt? cs n = (cs.flatMap slots)[n]?.join := by
  induction cs generalizing n with
  | nil => rfl
  | cons c cs ih =>
    rw [List.flatMap_cons]
    match n with
    | 0 =>
      unfold slots
      split <;> rfl
    | n + 1 =>
      rw [startingAt?]
      split
      case isTrue hwithin =>
        -- Only a wide constant has a position behind its first, and that holds nothing.
        cases hwide : c.value.isWide with
        | false => simp [width, hwide] at hwithin
        | true =>
          have hn : n = 0 := by
            simp only [width, hwide, if_true] at hwithin
            omega
          simp [slots, hwide, hn]
      case isFalse hbehind =>
        rw [ih, List.getElem?_append_right (by simpa using hbehind), length_slots]

/-- No constant starts behind the indices that are filled. -/
theorem startingAt?_eq_none_of_fills (h : Fills cs n) {m : Nat} (hm : n ≤ m) :
    startingAt? cs m = none := by
  induction cs generalizing n m with
  | nil => rfl
  | cons c cs ih =>
    obtain ⟨hpos, hrest⟩ := h
    match m, hm with
    | 0, hm => omega
    | m + 1, hm =>
      rw [startingAt?]
      split
      case isTrue => rfl
      case isFalse => exact ih hrest (by omega)

end ConstantLayout

namespace PoolLayout

variable (p : PoolLayout)

theorem reads_octets : Reads ConstantPool.read p.octets p.pool := by
  refine ((Reads.u2 p.count).within _).bind ?_
  have hfills := p.fills
  unfold pool
  split
  case h_1 hcount =>
    rw [hcount] at hfills ⊢
    rw [ConstantLayout.eq_nil_of_fills_zero hfills]
    exact .pure
  case h_2 n hcount =>
    rw [hcount] at hfills ⊢
    exact (ConstantLayout.reads_slots hfills 1).last .pure

@[simp] theorem size_pool : p.pool.size = p.count.toNat := by
  have hlength := ConstantLayout.le_length_of_fills p.fills
  simp only [ConstantPool.size, pool, List.size_toArray, List.length_take, List.length_cons]
  omega

theorem constant?_eq_none_of_le {index : UInt16} (h : p.count ≤ index) :
    p.constant? index = none := by
  unfold constant?
  split
  case isTrue => rfl
  case isFalse =>
    have hle : p.count.toNat - 1 ≤ index.toNat - 1 := Nat.sub_le_sub_right h 1
    exact ConstantLayout.startingAt?_eq_none_of_fills p.fills hle

/-- Every index of the pool but the first holds the constant that starts there, or nothing. -/
theorem getElem?_pool {index : UInt16} (hpos : index ≠ 0) (h : index < p.count) :
    p.pool.slots[index.toNat]? = some (p.constant? index) := by
  have hlength := ConstantLayout.le_length_of_fills p.fills
  have hcount : index.toNat < p.count.toNat := h
  obtain ⟨n, hn⟩ : ∃ n, index.toNat = n + 1 :=
    Nat.exists_eq_succ_of_ne_zero (by simpa [← UInt16.toNat_inj] using hpos)
  have hin : n < (p.constants.flatMap ConstantLayout.slots).length := by omega
  have hslot : p.constant? index = (p.constants.flatMap ConstantLayout.slots)[n] := by
    rw [constant?, if_neg hpos, ConstantLayout.startingAt?_eq_join, hn, Nat.add_sub_cancel,
      List.getElem?_eq_getElem hin, Option.join_some]
  rw [pool, List.getElem?_toArray, List.getElem?_take_of_lt hcount, hn, List.getElem?_cons_succ,
    List.getElem?_eq_getElem hin, hslot]

/-- What each index of a pool gives. -/
theorem get_pool (index : UInt16) :
    p.pool.get index =
      match p.constant? index with
      | some c => .ok c
      | none =>
        if 0 < index ∧ index < p.count then .error (.ofCause (.unusableSlot index))
        else .error (.ofCause (.indexOutOfRange index p.count.toNat)) := by
  rw [ConstantPool.get, size_pool]
  by_cases hzero : index = 0
  case pos =>
    subst hzero
    simp [constant?]
  have hpos : 0 < index := UInt16.pos_iff_ne_zero.mpr hzero
  rw [if_neg hzero]
  by_cases hin : index < p.count
  case pos =>
    rw [p.getElem?_pool hzero hin]
    cases p.constant? index with
    | none => simp [hpos, hin]
    | some c => rfl
  case neg =>
    have hout : p.pool.slots[index.toNat]? = none := by
      rw [Array.getElem?_eq_none_iff]
      exact Nat.le_trans (Nat.le_of_eq p.size_pool) (UInt16.not_lt.mp hin)
    rw [hout, p.constant?_eq_none_of_le (UInt16.not_lt.mp hin)]
    simp [hin]

/-! ## Names -/

variable {p} {index : UInt16}

theorem utf8_pool_of_text? {text : Text} (h : p.text? index = some text) :
    p.pool.utf8 index = .ok text := by
  unfold text? at h
  split at h
  case h_1 found hconstant =>
    cases h
    rw [ConstantPool.utf8, p.get_pool, hconstant]
    rfl
  case h_2 => cases h

theorem className_pool_of_className? {name : Text} (h : p.className? index = some name) :
    p.pool.className index = .ok name := by
  unfold className? at h
  split at h
  case h_1 nameIndex hconstant =>
    rw [ConstantPool.className, p.get_pool, hconstant]
    exact utf8_pool_of_text? h
  case h_2 => cases h

theorem utf8_pool (h : p.HasText index) : p.pool.utf8 index = .ok (p.text index) := by
  obtain ⟨found, htext⟩ := Option.isSome_iff_exists.mp h
  rw [utf8_pool_of_text? htext, text, htext, Option.getD_some]

theorem ne_zero_of_hasClass (h : p.HasClass index) : index ≠ 0 := by
  rintro rfl
  exact absurd h (by simp [HasClass, className?, constant?])

theorem className_pool (h : p.HasClass index) :
    p.pool.className index = .ok (p.className index) := by
  obtain ⟨name, hname⟩ := Option.isSome_iff_exists.mp h
  rw [className_pool_of_className? hname, className, if_neg (ne_zero_of_hasClass h), hname,
    Option.getD_some]

end PoolLayout

end JvmLinkage
