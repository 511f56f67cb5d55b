import JvmLinkage.Proofs.Assembler.Pool
import JvmLinkage.Proofs.Assembler.Source

/-!
# Assembled method bodies

Each instruction of a body holds an index that leads to what the step named. The code of a body is the
row of its instructions, each at the position of its step.
-/

namespace JvmLinkage

/-! ## Instructions -/

namespace Instruction

theorem index2_u2Bytes (pc : Nat) (opcode : UInt8) (index : UInt16) (more : Bytes) :
    index2 ⟨pc, opcode, u2Bytes index ++ more⟩ = index := by
  simp [index2, u2Bytes, Bytes.toNat_ofNat]

theorem index1_toUInt8 (pc : Nat) (opcode : UInt8) {index : UInt16} (h : index ≤ 0xFF) :
    index1 ⟨pc, opcode, [index.toUInt8]⟩ = index := by
  have hsmall : index.toNat ≤ 255 := h
  have hlow : index.toUInt8.toNat = index.toNat := by
    rw [UInt16.toNat_toUInt8]
    omega
  simp [index1, Bytes.toNat, hlow]

/-- The instruction loads the constant that one of its indices leads to. -/
def Loads (pool : ConstantPool) (i : Instruction) (item : PoolItem) : Prop :=
  (i.opcode = Opcode.ldc ∧ i.operands.length = 1 ∧ item.Resolves pool i.index1) ∨
    (i.opcode = Opcode.ldcWide ∧ i.operands.length = 2 ∧ item.Resolves pool i.index2)

/-- The instruction is that of the step, and its index leads to what the step names. -/
def Encodes (pool : ConstantPool) (i : Instruction) : BodyStep → Prop
  | .invoke use owner name descriptor =>
    i.opcode = use.opcode ∧ i.operands.length = 2 ∧
      pool.memberRef i.index2 = .ok ⟨.methodRef, owner, name, descriptor⟩
  | .invokeInterface owner name descriptor _ =>
    i.opcode = Opcode.invokeInterface ∧ i.operands.length = 4 ∧
      pool.memberRef i.index2 = .ok ⟨.interfaceMethodRef, owner, name, descriptor⟩
  | .access use owner name descriptor =>
    i.opcode = use.opcode ∧ i.operands.length = 2 ∧
      pool.memberRef i.index2 = .ok ⟨.fieldRef, owner, name, descriptor⟩
  | .classLiteral name => i.Loads pool (.classRef name)
  | .stringLiteral s => i.Loads pool (.string s)
  | .pop => i.opcode = Opcode.pop ∧ i.operands.length = 0
  | .returnVoid => i.opcode = Opcode.returnVoid ∧ i.operands.length = 0
  | _ => False

end Instruction

/-- The instructions that the steps append, from a position on. -/
inductive Emitted (pool : ConstantPool) : Nat → List Placed → List Instruction → Prop
  | nil {pc : Nat} : Emitted pool pc [] []
  | mark {pc : Nat} {step : BodyStep} {rest : List Placed} {is : List Instruction} :
    step.isInstruction = false → Emitted pool pc rest is → Emitted pool pc (⟨pc, step⟩ :: rest) is
  | instruction {pc : Nat} {step : BodyStep} {rest : List Placed} {i : Instruction}
      {is : List Instruction} :
    step.isInstruction = true → i.pc = pc → i.Encodes pool step →
      Emitted pool (pc + i.bytes.length) rest is → Emitted pool pc (⟨pc, step⟩ :: rest) (i :: is)

namespace Assembler

variable {p : ConstantPool → Prop}

/-! ## One step -/

/-- What a step appends to the code of a body. -/
def Appends (pool : ConstantPool) (b : Body) (s : BodyStep) (next : Body) : Prop :=
  if s.isInstruction then
    ∃ i : Instruction, i.pc = b.code.length ∧ i.Encodes pool s ∧ next.code = b.code ++ i.bytes
  else next.code = b.code

theorem exists_load {pool : ConstantPool} {index : UInt16} {item : PoolItem}
    (h : item.Resolves pool index) (b : Body) :
    ∃ i : Instruction, i.pc = b.code.length ∧ i.Loads pool item ∧
      (Body.load b index).code = b.code ++ i.bytes := by
  unfold Body.load
  split
  case isTrue hsmall =>
    refine ⟨⟨b.code.length, Opcode.ldc, [index.toUInt8]⟩, rfl, .inl ⟨rfl, rfl, ?_⟩, rfl⟩
    rwa [Instruction.index1_toUInt8 _ _ hsmall]
  case isFalse =>
    refine ⟨⟨b.code.length, Opcode.ldcWide, u2Bytes index ++ []⟩, rfl, .inr ⟨rfl, ?_, ?_⟩, ?_⟩
    · simp [u2Bytes]
    · rwa [Instruction.index2_u2Bytes]
    · simp [Body.push, Instruction.bytes]

theorem exists_reference {pool : ConstantPool} {index : UInt16} {ref : MemberRef}
    (h : pool.memberRef index = .ok ref) (b : Body) (opcode : UInt8) (more : Bytes) :
    ∃ i : Instruction, i.pc = b.code.length ∧
      (i.opcode = opcode ∧ i.operands.length = more.length + 2 ∧
        pool.memberRef i.index2 = .ok ref) ∧
      (Body.push b opcode (u2Bytes index ++ more)).code = b.code ++ i.bytes := by
  refine ⟨⟨b.code.length, opcode, u2Bytes index ++ more⟩, rfl, ⟨rfl, ?_, ?_⟩, rfl⟩
  · simp [u2Bytes, Nat.add_comm]
  · rwa [Instruction.index2_u2Bytes]

theorem enters_step {s : BodyStep} (hvalid : s.Valid) (hplain : ∀ t ∈ s.texts, t.Plain)
    (b : Body) : Enters p (step b s) fun next pool => Appends pool b s next := by
  have hreference {kind : MemberKind} {owner name descriptor : Text}
      (htexts : s.texts = [owner, name, descriptor])
      (hitem : (PoolItem.memberRef kind owner name descriptor).Valid) :
      Enters p (memberRef kind owner name descriptor) fun index pool =>
        pool.memberRef index = .ok ⟨kind.tag, owner, name, descriptor⟩ :=
    enters_memberRef (hplain owner (by simp [htexts])) (hplain name (by simp [htexts]))
      (hplain descriptor (by simp [htexts])) hitem
  cases s with
  | emit opcode operands => exact absurd hvalid id
  | line n => exact .pure fun _ _ => rfl
  | guarded start stop target catchType => exact .pure fun _ _ => rfl
  | invokeInterface owner name descriptor slots =>
    refine (hreference rfl hvalid.1).bind fun index => .pure fun pool hp => ?_
    exact exists_reference hp.2 b Opcode.invokeInterface [slots + 1, 0]
  | invoke use owner name descriptor | access use owner name descriptor =>
    refine (hreference rfl hvalid.1).bind fun index => .pure fun pool hp => ?_
    have hpush := exists_reference hp.2 b use.opcode []
    rw [List.append_nil] at hpush
    exact hpush
  | classLiteral name =>
    refine (enters_classRef (hplain name (by simp [BodyStep.texts]))).bind fun index => ?_
    exact .pure fun pool hp => exists_load hp.2 b
  | stringLiteral s =>
    refine (enters_string (hplain s (by simp [BodyStep.texts]))).bind fun index => ?_
    exact .pure fun pool hp => exists_load hp.2 b
  | pop => exact .pure fun _ _ => ⟨⟨b.code.length, Opcode.pop, []⟩, rfl, ⟨rfl, rfl⟩, rfl⟩
  | returnVoid =>
    exact .pure fun _ _ => ⟨⟨b.code.length, Opcode.returnVoid, []⟩, rfl, ⟨rfl, rfl⟩, rfl⟩
  | constant c => exact (enters_item hvalid hplain).bind fun _ => .pure fun _ _ => rfl

/-! ## Whole bodies -/

/-- The entry in the table of lines that a step makes. -/
def lineOf? : Placed → Option LineEntry
  | ⟨pc, .line n⟩ => some ⟨pc.toUInt16, lowWord n⟩
  | _ => none

/-- The handler that a step makes. -/
def handlerOf? : Placed → Option ExceptionHandler
  | ⟨_, .guarded start stop target catchType⟩ =>
    some ⟨lowWord start, lowWord stop, lowWord target, catchType⟩
  | _ => none

@[simp] theorem lines_load (b : Body) (index : UInt16) : (Body.load b index).lines = b.lines := by
  unfold Body.load
  split <;> rfl

@[simp] theorem handlers_load (b : Body) (index : UInt16) :
    (Body.load b index).handlers = b.handlers := by
  unfold Body.load
  split <;> rfl

theorem lines_step (a : Assembler) (b : Body) (s : BodyStep) :
    ((step b s).run a).1.lines = b.lines ++ (lineOf? ⟨b.code.length, s⟩).toList := by
  cases s with
  | line n => rfl
  | classLiteral name => exact (lines_load _ _).trans (List.append_nil _).symm
  | stringLiteral s => exact (lines_load _ _).trans (List.append_nil _).symm
  | _ => exact (List.append_nil _).symm

theorem handlers_step (a : Assembler) (b : Body) (s : BodyStep) :
    ((step b s).run a).1.handlers = b.handlers ++ (handlerOf? ⟨b.code.length, s⟩).toList := by
  cases s with
  | guarded start stop target catchType => rfl
  | classLiteral name => exact (handlers_load _ _).trans (List.append_nil _).symm
  | stringLiteral s => exact (handlers_load _ _).trans (List.append_nil _).symm
  | _ => exact (List.append_nil _).symm

theorem run_steps_cons (a : Assembler) (b : Body) (s : BodyStep) (rest : List BodyStep) :
    ((s :: rest).foldlM step b).run a =
      (rest.foldlM step ((step b s).run a).1).run ((step b s).run a).2 := rfl

/-- A table that each step adds at most one entry to has the entries of all steps in order. -/
theorem table_steps {τ : Type} {table : Body → List τ} {made? : Placed → Option τ}
    (h : ∀ (a : Assembler) (b : Body) (s : BodyStep),
      table ((step b s).run a).1 = table b ++ (made? ⟨b.code.length, s⟩).toList)
    (a : Assembler) (b : Body) (steps : List BodyStep) :
    table ((steps.foldlM step b).run a).1 = table b ++ (place a b steps).filterMap made? := by
  induction steps generalizing a b with
  | nil => exact (List.append_nil _).symm
  | cons s rest ih =>
    rw [run_steps_cons, ih, h, place, List.filterMap_cons]
    cases made? ⟨b.code.length, s⟩ <;> simp

/-- All steps of a body append their instructions, one after the other. -/
theorem emitted_steps {steps : List BodyStep} (hvalid : ∀ s ∈ steps, s.Valid)
    (hplain : ∀ s ∈ steps, ∀ t ∈ s.texts, t.Plain) {a : Assembler} {cs : List Constant}
    (ha : Entered a cs) (b : Body) :
    ∃ more, Entered ((steps.foldlM step b).run a).2 (cs ++ more) ∧
      outline ((steps.foldlM step b).run a).2 = outline a ∧
      Always (cs ++ more) fun pool => ∃ is, Emitted pool b.code.length (place a b steps) is ∧
        ((steps.foldlM step b).run a).1.code = b.code ++ is.flatMap Instruction.bytes := by
  induction steps generalizing a b cs with
  | nil =>
    refine ⟨[], ?_, rfl, fun _ _ => ⟨[], .nil, ?_⟩⟩
    · rwa [List.append_nil]
    · exact (List.append_nil _).symm
  | cons s rest ih =>
    rw [run_steps_cons]
    obtain ⟨more, hstep, hsame, happends⟩ :=
      enters_step (p := fun _ => True) (hvalid s (by simp)) (hplain s (by simp)) b a cs ha
        fun _ _ => trivial
    obtain ⟨later, hrest, hsame', hemitted⟩ := ih (fun t ht => hvalid t (by simp [ht]))
      (fun t ht => hplain t (by simp [ht])) hstep ((step b s).run a).1
    refine ⟨more ++ later, ?_, hsame'.trans hsame, ?_⟩
    · rwa [← List.append_assoc]
    rw [← List.append_assoc]
    intro final hfits
    -- What the step has entered is still there when the rest of the steps are done.
    have happend := happends.append later final hfits
    obtain ⟨is, his, hcode⟩ := hemitted final hfits
    rw [hcode, place]
    unfold Appends at happend
    split at happend
    case isTrue hinstruction =>
      obtain ⟨i, hpc, hencodes, hnext⟩ := happend
      rw [hnext] at his ⊢
      rw [List.length_append] at his
      exact ⟨i :: is, .instruction hinstruction hpc hencodes his, by simp⟩
    case isFalse hmark =>
      rw [happend] at his ⊢
      exact ⟨is, .mark (by simpa using hmark) his, rfl⟩

end Assembler

end JvmLinkage
