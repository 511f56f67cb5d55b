import JvmLinkage.Assembler
import JvmLinkage.Proofs.Octets

/-!
# Walking the code of a method

The shapes of instructions are said here one by one, without reference to how long an instruction is
found to be: an opcode with the operands that the instruction set gives it, a switch with as many
entries as its operands announce, a wide form. Walking code meets instructions of these shapes that
tile it from its start on, and it stops only where none begins. Instructions of these shapes that are
laid out one after the other are met again.
-/

namespace JvmLinkage

/-! ## Shapes -/

namespace Opcode

/-- Opcodes with one operand octet: a value, an index of a constant, a local variable, the element
type of an array. -/
def withOne : List UInt8 :=
  [0x10, 0x12, 0x15, 0x16, 0x17, 0x18, 0x19, 0x36, 0x37, 0x38, 0x39, 0x3A, 0xA9, 0xBC]

/-- Opcodes with two operand octets: a value, an index of a constant, a variable with an increment, a
jump. -/
def withTwo : List UInt8 :=
  [0x11, 0x13, 0x14, 0x84, 0x99, 0x9A, 0x9B, 0x9C, 0x9D, 0x9E, 0x9F, 0xA0, 0xA1, 0xA2, 0xA3, 0xA4,
    0xA5, 0xA6, 0xA7, 0xA8, 0xB2, 0xB3, 0xB4, 0xB5, 0xB6, 0xB7, 0xB8, 0xBB, 0xBD, 0xC0, 0xC1, 0xC6,
    0xC7]

/-- The opcode that creates arrays of several dimensions has three operand octets. -/
def withThree : List UInt8 := [0xC5]

/-- Opcodes with four operand octets: an index of a constant and two octets more, a far jump. -/
def withFour : List UInt8 := [0xB9, 0xBA, 0xC8, 0xC9]

/-- The number of operand octets of an opcode. Switches and the wide form have no fixed number, and
between the last instruction and the two reserved ones there are no opcodes. -/
def arity? (opcode : UInt8) : Option Nat :=
  if opcode ∈ [tableSwitch, lookupSwitch, wide] ∨ 0xCA < opcode ∧ opcode < 0xFE then none
  else if opcode ∈ withOne then some 1
  else if opcode ∈ withTwo then some 2
  else if opcode ∈ withThree then some 3
  else if opcode ∈ withFour then some 4
  else some 0

theorem fixedOperands?_eq_arity? (opcode : UInt8) : fixedOperands? opcode = arity? opcode := by
  have hall : ∀ k : Fin 256, fixedOperands? (.ofNat k) = arity? (.ofNat k) := by decide +kernel
  have hopcode := hall ⟨opcode.toNat, opcode.toNat_lt⟩
  rwa [UInt8.ofNat_toNat] at hopcode

end Opcode

namespace Instruction

/-- Octets between a switch opcode and the next position that four divides. -/
structure Aligns (pc : Nat) (gap : Bytes) : Prop where
  short : gap.length < 4
  aligned : 4 ∣ pc + 1 + gap.length

/-- The operands of a switch over a range: a default, the ends of the range, and an entry of four
octets for every number of it. -/
inductive TableSwitch (pc : Nat) : Bytes → Prop where
  | mk {gap fallback entries : Bytes} {low high : Int32} :
    Aligns pc gap → fallback.length = 4 → low.toInt ≤ high.toInt →
      (entries.length : Int) = 4 * (high.toInt - low.toInt + 1) →
      TableSwitch pc
        (gap ++ (fallback ++ (u4Bytes low.toUInt32 ++ (u4Bytes high.toUInt32 ++ entries))))

/-- The operands of a switch over single numbers: a default, the number of pairs, and as many entries
of eight octets. -/
inductive LookupSwitch (pc : Nat) : Bytes → Prop where
  | mk {gap fallback entries : Bytes} {pairs : Int32} :
    Aligns pc gap → fallback.length = 4 → 0 ≤ pairs.toInt →
      (entries.length : Int) = 8 * pairs.toInt →
      LookupSwitch pc (gap ++ (fallback ++ (u4Bytes pairs.toUInt32 ++ entries)))

/-- An instruction as the instruction set has it. -/
inductive Shaped : Instruction → Prop where
  | fixed {pc : Nat} {opcode : UInt8} {operands : Bytes} :
      Opcode.arity? opcode = some operands.length → Shaped ⟨pc, opcode, operands⟩
  | tableSwitch {pc : Nat} {operands : Bytes} :
      TableSwitch pc operands → Shaped ⟨pc, Opcode.tableSwitch, operands⟩
  | lookupSwitch {pc : Nat} {operands : Bytes} :
      LookupSwitch pc operands → Shaped ⟨pc, Opcode.lookupSwitch, operands⟩
  | wideIncrement {pc : Nat} {operands : Bytes} :
      operands.length = 4 → Shaped ⟨pc, Opcode.wide, Opcode.increment :: operands⟩
  | wide {pc : Nat} {next : UInt8} {operands : Bytes} :
      next ≠ Opcode.increment → operands.length = 2 → Shaped ⟨pc, Opcode.wide, next :: operands⟩

/-- Instructions one after the other, the first at a position. -/
def Laid : Nat → List Instruction → Prop
  | _, [] => True
  | pc, i :: is => i.pc = pc ∧ Laid (pc + i.bytes.length) is

theorem Laid.pairwise_pc {pc : Nat} {is : List Instruction} (h : Laid pc is) :
    is.Pairwise (·.pc < ·.pc) := by
  have key : ∀ (is : List Instruction) (pc : Nat), Laid pc is →
      (∀ i ∈ is, pc ≤ i.pc) ∧ is.Pairwise (·.pc < ·.pc) := by
    intro is
    induction is with
    | nil => simp
    | cons i is ih =>
      rintro _ ⟨rfl, hrest⟩
      obtain ⟨hstart, hpairs⟩ := ih _ hrest
      have hlength : 0 < i.bytes.length := by simp [bytes]
      refine ⟨List.forall_mem_cons.mpr ⟨Nat.le_refl _, ?_⟩, List.pairwise_cons.mpr ⟨?_, hpairs⟩⟩
      · exact fun j hj => Nat.le_of_add_right_le (hstart j hj)
      · exact fun j hj => Nat.lt_of_lt_of_le (Nat.lt_add_of_pos_right hlength) (hstart j hj)
  exact (key is pc h).2

/-! ## The operands of switches -/

theorem aligns_iff {pc : Nat} {gap : Bytes} : Aligns pc gap ↔ gap.length = padding pc := by
  constructor
  · rintro ⟨hshort, haligned⟩
    rw [padding]
    omega
  · intro hgap
    rw [padding] at hgap
    exact ⟨by omega, by omega⟩

theorem operandWord_append (pc : Nat) (front : Bytes) (n : Int32) (back : Bytes) :
    operandWord pc (front ++ (u4Bytes n.toUInt32 ++ back)) front.length = .ok n.toInt := by
  have hlength : (u4Bytes n.toUInt32).length = 4 := Bytes.length_ofNat ..
  have hword : ((front ++ (u4Bytes n.toUInt32 ++ back)).drop front.length).take 4 =
      u4Bytes n.toUInt32 := by
    rw [List.drop_left, List.take_left' hlength]
  simp only [operandWord, hword, hlength, if_true]
  rw [u4Bytes, Bytes.toNat_ofNat]
  simp

theorem exists_of_operandWord {pc position : Nat} {rest : Bytes} {n : Int}
    (h : operandWord pc rest position = .ok n) :
    ∃ k : Int32, k.toInt = n ∧ (rest.drop position).take 4 = u4Bytes k.toUInt32 := by
  unfold operandWord at h
  generalize (rest.drop position).take 4 = word at h
  dsimp only at h
  split at h
  case isTrue hlength =>
    cases h
    refine ⟨_, rfl, ?_⟩
    have hlt := Bytes.toNat_lt word
    have hback := Bytes.ofNat_toNat word
    rw [hlength] at hlt hback
    rw [u4Bytes, UInt32.toUInt32_toInt32, UInt32.toNat_ofNat_of_lt' hlt, hback]
  case isFalse => cases h

theorem switchOperands_eq_ok_iff {pc head size : Nat} {rest : Bytes} {count : Int} {entrySize : Nat} :
    switchOperands pc rest head count entrySize = .ok size ↔
      size = head + count.toNat * entrySize ∧ size ≤ rest.length := by
  unfold switchOperands
  dsimp only
  split
  case isTrue hfits => grind
  case isFalse hover => grind

/-! ## One instruction -/

theorem operandCount_of_arity? {opcode : UInt8} {n : Nat} (h : Opcode.arity? opcode = some n)
    (pc : Nat) (rest : Bytes) : operandCount pc opcode rest = .ok n := by
  unfold operandCount
  rw [Opcode.fixedOperands?_eq_arity?, h]

theorem operandCount_tableSwitch_eq_ok_iff {pc n : Nat} {rest : Bytes} :
    operandCount pc Opcode.tableSwitch rest = .ok n ↔
      ∃ low high, operandWord pc rest (padding pc + 4) = .ok low ∧
        operandWord pc rest (padding pc + 8) = .ok high ∧ low ≤ high ∧
        n = padding pc + 12 + (high - low + 1).toNat * 4 ∧ n ≤ rest.length := by
  have hfixed : Opcode.fixedOperands? Opcode.tableSwitch = none := by decide
  unfold operandCount
  rw [hfixed]
  dsimp only
  rw [if_pos rfl]
  cases operandWord pc rest (padding pc + 4) with
  | error cause => simp [bind, Except.bind]
  | ok low =>
    cases operandWord pc rest (padding pc + 8) with
    | error cause => simp [bind, Except.bind]
    | ok high =>
      by_cases hrange : low ≤ high
      · simp [bind, Except.bind, Int.not_lt.mpr hrange, switchOperands_eq_ok_iff, hrange]
      · simp [bind, Except.bind, throw, throwThe, MonadExceptOf.throw, Int.not_le.mp hrange, hrange]

theorem operandCount_lookupSwitch_eq_ok_iff {pc n : Nat} {rest : Bytes} :
    operandCount pc Opcode.lookupSwitch rest = .ok n ↔
      ∃ pairs, operandWord pc rest (padding pc + 4) = .ok pairs ∧ 0 ≤ pairs ∧
        n = padding pc + 8 + pairs.toNat * 8 ∧ n ≤ rest.length := by
  have hfixed : Opcode.fixedOperands? Opcode.lookupSwitch = none := by decide
  unfold operandCount
  rw [hfixed]
  dsimp only
  rw [if_neg (by decide), if_pos rfl]
  cases operandWord pc rest (padding pc + 4) with
  | error cause => simp [bind, Except.bind]
  | ok pairs =>
    by_cases hcount : 0 ≤ pairs
    · simp [bind, Except.bind, Int.not_lt.mpr hcount, switchOperands_eq_ok_iff, hcount]
    · simp [bind, Except.bind, throw, throwThe, MonadExceptOf.throw, Int.not_le.mp hcount, hcount]

theorem operandCount_wide (pc : Nat) (next : UInt8) (rest : Bytes) :
    operandCount pc Opcode.wide (next :: rest) =
      .ok (if next = Opcode.increment then 5 else 3) := rfl

/-- The size of an instruction is found whatever follows it. -/
theorem Shaped.operandCount_eq {i : Instruction} (h : i.Shaped) (rest : Bytes) :
    operandCount i.pc i.opcode (i.operands ++ rest) = .ok i.operands.length := by
  have hword (n : Int32) : (u4Bytes n.toUInt32).length = 4 := Bytes.length_ofNat ..
  cases h with
  | fixed harity => exact operandCount_of_arity? harity _ _
  | @tableSwitch pc _ hswitch =>
    obtain @⟨gap, fallback, entries, low, high, hgap, hfallback, hrange, hentries⟩ := hswitch
    have hlow := operandWord_append pc (gap ++ fallback) low
      (u4Bytes high.toUInt32 ++ entries ++ rest)
    have hhigh := operandWord_append pc (gap ++ fallback ++ u4Bytes low.toUInt32) high
      (entries ++ rest)
    simp only [List.append_assoc, List.length_append, hfallback, hword, aligns_iff.mp hgap]
      at hlow hhigh
    refine operandCount_tableSwitch_eq_ok_iff.mpr ⟨low.toInt, high.toInt, ?_, ?_, hrange, ?_, ?_⟩
    · simpa using hlow
    · simpa using hhigh
    · simp only [List.length_append, hfallback, hword, aligns_iff.mp hgap]
      omega
    · simp
  | @lookupSwitch pc _ hswitch =>
    obtain @⟨gap, fallback, entries, pairs, hgap, hfallback, hcount, hentries⟩ := hswitch
    have hpairs := operandWord_append pc (gap ++ fallback) pairs (entries ++ rest)
    simp only [List.append_assoc, List.length_append, hfallback, aligns_iff.mp hgap] at hpairs
    refine operandCount_lookupSwitch_eq_ok_iff.mpr ⟨pairs.toInt, ?_, hcount, ?_, ?_⟩
    · simpa using hpairs
    · simp only [List.length_append, hfallback, hword, aligns_iff.mp hgap]
      omega
    · simp
  | wideIncrement hlength => simp [operandCount_wide, hlength]
  | wide hnext hlength => simp [operandCount_wide, hnext, hlength]

theorem tableSwitch_of_operandCount {pc n : Nat} {rest : Bytes}
    (h : operandCount pc Opcode.tableSwitch rest = .ok n) : TableSwitch pc (rest.take n) := by
  obtain ⟨_, _, hlow, hhigh, hrange, rfl, hfits⟩ := operandCount_tableSwitch_eq_ok_iff.mp h
  obtain ⟨low, rfl, hlowWord⟩ := exists_of_operandWord hlow
  obtain ⟨high, rfl, hhighWord⟩ := exists_of_operandWord hhigh
  generalize hcount : (high.toInt - low.toInt + 1).toNat * 4 = count at hfits
  have hparts : rest.take (padding pc + 12 + count) = rest.take (padding pc) ++
      ((rest.drop (padding pc)).take 4 ++ (u4Bytes low.toUInt32 ++ (u4Bytes high.toUInt32 ++
        (rest.drop (padding pc + 12)).take count))) := by
    rw [← hlowWord, ← hhighWord,
      show padding pc + 12 + count = padding pc + (4 + (4 + (4 + count))) by omega]
    simp only [List.take_add, List.drop_drop, Nat.add_assoc]
  rw [hparts]
  refine .mk (aligns_iff.mpr ?_) ?_ hrange ?_
  · rw [List.length_take]
    omega
  · rw [List.length_take, List.length_drop]
    omega
  · rw [List.length_take, List.length_drop]
    omega

theorem lookupSwitch_of_operandCount {pc n : Nat} {rest : Bytes}
    (h : operandCount pc Opcode.lookupSwitch rest = .ok n) : LookupSwitch pc (rest.take n) := by
  obtain ⟨_, hpairs, hcount, rfl, hfits⟩ := operandCount_lookupSwitch_eq_ok_iff.mp h
  obtain ⟨pairs, rfl, hpairsWord⟩ := exists_of_operandWord hpairs
  generalize hsize : pairs.toInt.toNat * 8 = size at hfits
  have hparts : rest.take (padding pc + 8 + size) = rest.take (padding pc) ++
      ((rest.drop (padding pc)).take 4 ++ (u4Bytes pairs.toUInt32 ++
        (rest.drop (padding pc + 8)).take size)) := by
    rw [← hpairsWord, show padding pc + 8 + size = padding pc + (4 + (4 + size)) by omega]
    simp only [List.take_add, List.drop_drop, Nat.add_assoc]
  rw [hparts]
  refine .mk (aligns_iff.mpr ?_) ?_ hcount ?_
  · rw [List.length_take]
    omega
  · rw [List.length_take, List.length_drop]
    omega
  · rw [List.length_take, List.length_drop]
    omega

/-- A size is found only for what is an instruction of that size. -/
theorem shaped_of_operandCount {pc n : Nat} {opcode : UInt8} {rest : Bytes}
    (h : operandCount pc opcode rest = .ok n) (hfits : n ≤ rest.length) :
    Shaped ⟨pc, opcode, rest.take n⟩ := by
  cases harity : Opcode.arity? opcode with
  | some k =>
    rw [operandCount_of_arity? harity] at h
    obtain rfl := Except.ok.inj h
    refine .fixed ?_
    rw [harity, List.length_take, Nat.min_eq_left hfits]
  | none =>
    by_cases htable : opcode = Opcode.tableSwitch
    · subst htable
      exact .tableSwitch (tableSwitch_of_operandCount h)
    · by_cases hlookup : opcode = Opcode.lookupSwitch
      · subst hlookup
        exact .lookupSwitch (lookupSwitch_of_operandCount h)
      · unfold operandCount at h
        rw [Opcode.fixedOperands?_eq_arity?, harity] at h
        simp only [htable, hlookup, if_false] at h
        split at h
        case isFalse => cases h
        case isTrue hwide =>
          subst hwide
          cases rest with
          | nil => cases h
          | cons next rest =>
            obtain rfl := Except.ok.inj h
            rw [List.length_cons] at hfits
            split at hfits
            case isTrue hnext =>
              rw [if_pos hnext, hnext, List.take_succ_cons]
              refine .wideIncrement ?_
              rw [List.length_take]
              omega
            case isFalse hnext =>
              rw [if_neg hnext, List.take_succ_cons]
              refine .wide hnext ?_
              rw [List.length_take]
              omega

/-! ## The whole code -/

/-- An instruction is met where it is laid out, and the walk goes on behind it. -/
theorem walkFrom_bytes_append {i : Instruction} {rest : Bytes}
    (h : operandCount i.pc i.opcode (i.operands ++ rest) = .ok i.operands.length) (size : Nat) :
    walkFrom size i.pc (i.bytes ++ rest) =
      (i :: (walkFrom size (i.pc + i.bytes.length) rest).1,
        (walkFrom size (i.pc + i.bytes.length) rest).2) := by
  have hpc : i.pc + i.bytes.length = i.pc + 1 + i.operands.length := by
    simp [bytes]
    omega
  rw [hpc, bytes, List.cons_append, walkFrom, h]
  simp

/-- Instructions that are laid out one after the other are met one after the other. -/
theorem walkFrom_laid {pc : Nat} {is : List Instruction} (hlaid : Laid pc is)
    (hshaped : ∀ i ∈ is, i.Shaped) (size : Nat) (rest : Bytes) :
    walkFrom size pc (is.flatMap bytes ++ rest) =
      (is ++ (walkFrom size (pc + (is.flatMap bytes).length) rest).1,
        (walkFrom size (pc + (is.flatMap bytes).length) rest).2) := by
  induction is generalizing pc with
  | nil => simp
  | cons i is ih =>
    obtain ⟨rfl, hlaid⟩ := hlaid
    obtain ⟨hfirst, hrest⟩ := List.forall_mem_cons.mp hshaped
    rw [List.flatMap_cons, List.append_assoc,
      walkFrom_bytes_append (hfirst.operandCount_eq _), ih hlaid hrest, List.length_append,
      Nat.add_assoc]
    rfl

/-- What a walk has met when it ends: instructions that tile the code up to there. -/
structure Tiles (pc : Nat) (code : Bytes) (walked : List Instruction × Option Cause) : Prop where
  laid : Laid pc walked.1
  shaped : ∀ i ∈ walked.1, i.Shaped
  tiled : ∃ rest, code = walked.1.flatMap bytes ++ rest ∧ (rest = [] ↔ walked.2 = none)

theorem tiles_walkFrom (size pc : Nat) (code : Bytes) : Tiles pc code (walkFrom size pc code) := by
  fun_induction walkFrom size pc code with
  | case1 pc => exact ⟨trivial, nofun, [], rfl, by simp⟩
  | case2 pc opcode rest cause hcount => exact ⟨trivial, nofun, opcode :: rest, rfl, by simp⟩
  | case3 pc opcode rest n hcount operands hlength more cause hmore ih =>
    rw [hmore] at ih
    obtain ⟨hlaid, hshaped, left, hcode, hend⟩ := ih
    have hfits : n ≤ rest.length := by
      rw [List.length_take] at hlength
      omega
    refine ⟨⟨rfl, ?_⟩, ?_, left, ?_, hend⟩
    · have hnext : pc + (bytes ⟨pc, opcode, operands⟩).length = pc + 1 + n := by
        rw [bytes, List.length_cons, hlength]
        omega
      rwa [hnext]
    · exact List.forall_mem_cons.mpr ⟨shaped_of_operandCount hcount hfits, hshaped⟩
    · rw [List.flatMap_cons, List.append_assoc, ← hcode, bytes, List.cons_append,
        List.take_append_drop]
  | case4 pc opcode rest n hcount operands hover =>
    exact ⟨trivial, nofun, opcode :: rest, rfl, by simp⟩

/-- A walk goes on where an instruction begins. -/
theorem not_begins_of_walkFrom {size pc : Nat} {code : Bytes} {is : List Instruction}
    {cause : Option Cause} (hwalk : walkFrom size pc code = (is, cause)) {i : Instruction}
    (hi : i.Shaped) (hpc : i.pc = pc + (is.flatMap bytes).length) :
    ¬ is.flatMap bytes ++ i.bytes <+: code := by
  rintro ⟨more, rfl⟩
  obtain ⟨hlaid, hshaped, -⟩ := tiles_walkFrom size pc (is.flatMap bytes ++ i.bytes ++ more)
  rw [hwalk] at hlaid hshaped
  rw [List.append_assoc, walkFrom_laid hlaid hshaped, ← hpc,
    walkFrom_bytes_append (hi.operandCount_eq more)] at hwalk
  simpa using congrArg (·.1.length) hwalk

/-! ## Visited instructions -/

theorem Shaped.tableSwitch_of_opcode {i : Instruction} (h : i.Shaped)
    (hopcode : i.opcode = Opcode.tableSwitch) : TableSwitch i.pc i.operands := by
  cases h with
  | @fixed _ opcode _ harity =>
    obtain rfl : opcode = Opcode.tableSwitch := hopcode
    cases harity
  | tableSwitch hswitch => exact hswitch
  | lookupSwitch => cases hopcode
  | wideIncrement => cases hopcode
  | wide => cases hopcode

theorem Shaped.lookupSwitch_of_opcode {i : Instruction} (h : i.Shaped)
    (hopcode : i.opcode = Opcode.lookupSwitch) : LookupSwitch i.pc i.operands := by
  cases h with
  | @fixed _ opcode _ harity =>
    obtain rfl : opcode = Opcode.lookupSwitch := hopcode
    cases harity
  | tableSwitch => cases hopcode
  | lookupSwitch hswitch => exact hswitch
  | wideIncrement => cases hopcode
  | wide => cases hopcode

theorem Shaped.length_of_arity? {i : Instruction} {n : Nat} (h : i.Shaped)
    (harity : Opcode.arity? i.opcode = some n) : i.operands.length = n := by
  cases h with
  | fixed hlength => exact Option.some.inj (hlength.symm.trans harity)
  | tableSwitch => cases harity
  | lookupSwitch => cases harity
  | wideIncrement => cases harity
  | wide => cases harity

/-- Opcodes whose first two operand octets are the index of a constant. -/
def indexing : List UInt8 :=
  [Opcode.ldcWide, Opcode.getStatic, Opcode.putStatic, Opcode.getField, Opcode.putField,
    Opcode.invokeVirtual, Opcode.invokeSpecial, Opcode.invokeStatic, Opcode.invokeInterface]

theorem Shaped.two_le_length {i : Instruction} (h : i.Shaped) (hopcode : i.opcode ∈ indexing) :
    2 ≤ i.operands.length := by
  have harity : ∀ opcode ∈ indexing,
      Opcode.arity? opcode = some 2 ∨ Opcode.arity? opcode = some 4 := by decide +kernel
  rcases harity i.opcode hopcode with htwo | hfour
  · exact Nat.le_of_eq (h.length_of_arity? htwo).symm
  · rw [h.length_of_arity? hfour]
    decide

/-- Walking code meets instructions that tile it from its start on, all of it if and only if the walk
succeeds. Each is an instruction of its opcode: switches have the entries that they announce, and an
index of a constant can be read where there is one. The walk stops only where no instruction begins,
so it meets again the instructions that are laid out one after the other. -/
theorem walk_tiles_code (code : Bytes) :
    let visited := (walk code).1
    let tiled := visited.flatMap bytes
    Laid 0 visited ∧ (∀ i ∈ visited, 1 ≤ i.bytes.length) ∧
    tiled <+: code ∧ (tiled = code ↔ (walk code).2 = none) ∧
    (∀ i ∈ visited, i.Shaped ∧
      (i.opcode = Opcode.tableSwitch → TableSwitch i.pc i.operands) ∧
      (i.opcode = Opcode.lookupSwitch → LookupSwitch i.pc i.operands) ∧
      (i.opcode = Opcode.ldc → 1 ≤ i.operands.length) ∧
      (i.opcode ∈ indexing → 2 ≤ i.operands.length)) ∧
    (∀ i : Instruction, i.Shaped → i.pc = tiled.length → ¬ tiled ++ i.bytes <+: code) ∧
    ∀ is, Laid 0 is → (∀ i ∈ is, i.Shaped) → walk (is.flatMap bytes) = (is, none) := by
  intro visited tiled
  obtain ⟨hlaid, hshaped, rest, hcode, hend⟩ := tiles_walkFrom code.length 0 code
  refine ⟨hlaid, ?_, ⟨rest, hcode.symm⟩, ?_, ?_, ?_, ?_⟩
  · intro i _
    rw [bytes, List.length_cons]
    omega
  · rw [show (walk code).2 = none ↔ rest = [] from hend.symm]
    conv_lhs => rw [hcode]
    exact List.self_eq_append_right
  · intro i hi
    have hi := hshaped i hi
    refine ⟨hi, hi.tableSwitch_of_opcode, hi.lookupSwitch_of_opcode, ?_, hi.two_le_length⟩
    intro hldc
    have harity : Opcode.arity? i.opcode = some 1 := by
      rw [hldc]
      decide
    exact Nat.le_of_eq (hi.length_of_arity? harity).symm
  · intro i hi hpc
    exact not_begins_of_walkFrom rfl hi (hpc.trans (Nat.zero_add _).symm)
  · intro is hlaid hshaped
    have hwalk := walkFrom_laid hlaid hshaped (is.flatMap bytes).length []
    rwa [List.append_nil, walkFrom, List.append_nil] at hwalk

/-- Code with both switches, each behind a gap, and both wide forms. -/
def sampleCode : List Instruction :=
  [⟨0, Opcode.wide, [Opcode.increment, 1, 0, 0, 1]⟩,
    ⟨6, Opcode.ldc, [7]⟩,
    ⟨8, Opcode.tableSwitch, [0, 0, 0] ++ ([0, 0, 0, 24] ++ (u4Bytes (-1 : Int32).toUInt32 ++
      (u4Bytes (0 : Int32).toUInt32 ++ [0, 0, 0, 24, 0, 0, 0, 44])))⟩,
    ⟨32, Opcode.lookupSwitch, [0, 0, 0] ++ ([0, 0, 0, 20] ++ (u4Bytes (1 : Int32).toUInt32 ++
      [0, 0, 0, 5, 0, 0, 0, 20]))⟩,
    ⟨52, Opcode.wide, [0x15, 1, 0]⟩,
    ⟨56, Opcode.invokeStatic, [0, 9]⟩,
    ⟨59, Opcode.returnVoid, []⟩]

theorem sampleCode_shaped : ∀ i ∈ sampleCode, i.Shaped := by
  simp only [sampleCode, List.forall_mem_cons]
  refine ⟨.wideIncrement rfl, .fixed rfl, .tableSwitch ?_, .lookupSwitch ?_,
    .wide (by decide) rfl, .fixed rfl, .fixed rfl, nofun⟩
  · exact .mk ⟨by decide, by decide⟩ rfl (by decide) rfl
  · exact .mk ⟨by decide, by decide⟩ rfl (by decide) rfl

theorem walk_sampleCode :
    Laid 0 sampleCode ∧ (∀ i ∈ sampleCode, i.Shaped) ∧
      walk (sampleCode.flatMap bytes) = (sampleCode, none) := by
  have hlaid : Laid 0 sampleCode := ⟨rfl, rfl, rfl, rfl, rfl, rfl, rfl, trivial⟩
  obtain ⟨-, -, -, -, -, -, hback⟩ := walk_tiles_code (sampleCode.flatMap bytes)
  exact ⟨hlaid, sampleCode_shaped, hback sampleCode hlaid sampleCode_shaped⟩

end Instruction

end JvmLinkage
