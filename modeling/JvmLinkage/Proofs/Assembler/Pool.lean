import JvmLinkage.Proofs.Assembler.Labels
import JvmLinkage.Proofs.ClassFile.Parts
import JvmLinkage.Proofs.ClassFile.Pool
import Mathlib.Data.List.Forall2

/-!
# Pools under assembly

While a class is assembled its pool only grows. An index that was given out leads to its constant in
every later pool, as long as all indices fit in sixteen bits, and a label that is known leads to the
constant it was made for.
-/

namespace JvmLinkage

open Reader

/-! ## Constants with plain texts -/

namespace Constant

/-- The octets of a constant, where a text stands for itself. -/
def octets : Constant → Bytes
  | utf8 text => 1 :: (u2Bytes text.length.toUInt16 ++ text)
  | c => c.mark :: c.numbers

/-- What the indices of a constant hold. -/
def slots (c : Constant) : List (Option Constant) := if c.isWide then [some c, none] else [some c]

/-- Whether the constant, if it is a text, stands for itself. -/
def Plain : Constant → Prop
  | utf8 text => text.Plain
  | _ => True

theorem Plain.reads {c : Constant} (h : c.Plain) : Reads read c.octets c := by
  cases c with
  | utf8 text =>
    have hlength : text.length.toUInt16.toNat = text.length := UInt16.toNat_ofNat_of_lt' h.1
    have hdata := Reads.bytes text
    rw [← hlength] at hdata
    refine reads_announced (c := .utf8 text) (((Reads.u2 _).within _).bind ((hdata.within _).last ?_))
    rw [h.decode]
    exact .pure
  | _ => exact reads_announced (reads_numbers nofun)

end Constant

namespace ConstantPool

/-- The pool of constants in order. -/
def ofConstants (cs : List Constant) : ConstantPool := ⟨(none :: cs.flatMap Constant.slots).toArray⟩

theorem size_ofConstants (cs : List Constant) :
    (ofConstants cs).size = (cs.flatMap Constant.slots).length + 1 := by
  simp [ofConstants, size]

theorem size_ofConstants_append (cs more : List Constant) :
    (ofConstants (cs ++ more)).size = (ofConstants cs).size + (more.flatMap Constant.slots).length := by
  simp [size_ofConstants]
  omega

/-- A constant of one index, before others or at the end. -/
theorem reads_readSlots_narrow {c : Constant} (hc : c.Plain) (hnarrow : c.isWide = false)
    {index n : Nat} {octets : Bytes} {slots : List (Option Constant)}
    (h : Reads (readSlots (index + 1) n) octets slots) :
    Reads (readSlots index (n + 1)) (c.octets ++ octets) (some c :: slots) := by
  have hread := hc.reads.within (.item "constant pool entry" index)
  cases n with
  | zero => exact hread.bind (h.map (some c :: ·))
  | succ n =>
    refine hread.bind ?_
    rw [if_neg (by simp [hnarrow])]
    exact h.last .pure

theorem reads_readSlots {cs : List Constant} (h : ∀ c ∈ cs, c.Plain) (index : Nat) :
    Reads (readSlots index (cs.flatMap Constant.slots).length) (cs.flatMap Constant.octets)
      (cs.flatMap Constant.slots) := by
  induction cs generalizing index with
  | nil => exact .pure
  | cons c cs ih =>
    have hc := h c (by simp)
    have hcs := fun next => ih (fun d hd => h d (by simp [hd])) next
    simp only [List.flatMap_cons, List.length_append]
    cases hwide : c.isWide with
    | true =>
      have hslots : c.slots = [some c, none] := by simp [Constant.slots, hwide]
      rw [hslots, Nat.add_comm]
      refine (hc.reads.within _).bind ?_
      rw [if_pos hwide]
      exact (hcs (index + 2)).last .pure
    | false =>
      have hslots : c.slots = [some c] := by simp [Constant.slots, hwide]
      rw [hslots, Nat.add_comm]
      exact reads_readSlots_narrow hc hwide (hcs (index + 1))

theorem reads_ofConstants {cs : List Constant} (h : ∀ c ∈ cs, c.Plain)
    (hfits : (ofConstants cs).size < 65536) :
    Reads read (u2Bytes (ofConstants cs).size.toUInt16 ++ cs.flatMap Constant.octets)
      (ofConstants cs) := by
  have hcount : (ofConstants cs).size.toUInt16.toNat = (cs.flatMap Constant.slots).length + 1 := by
    rw [UInt16.toNat_ofNat_of_lt' hfits, size_ofConstants]
  refine ((Reads.u2 _).within _).bind ?_
  rw [hcount]
  exact (reads_readSlots h 1).last .pure

/-- The constant after the first ones stands at the index that these do not take. -/
theorem get_ofConstants {cs more : List Constant} {c : Constant}
    (hfits : (ofConstants (cs ++ c :: more)).size < 65536) :
    (ofConstants (cs ++ c :: more)).get (ofConstants cs).size.toUInt16 = .ok c := by
  have hsize := size_ofConstants_append cs (c :: more)
  have hindex : (ofConstants cs).size.toUInt16.toNat = (cs.flatMap Constant.slots).length + 1 := by
    rw [UInt16.toNat_ofNat_of_lt' (show (ofConstants cs).size < 65536 by omega), size_ofConstants]
  have hpos : (ofConstants cs).size.toUInt16 ≠ 0 := by
    intro hzero
    simp [hzero] at hindex
  have hslot : (ofConstants (cs ++ c :: more)).slots[(ofConstants cs).size.toUInt16.toNat]? =
      some (some c) := by
    rw [hindex, ofConstants, List.getElem?_toArray, List.getElem?_cons_succ, List.flatMap_append,
      List.getElem?_append_right (Nat.le_refl _), Nat.sub_self, List.flatMap_cons, Constant.slots]
    split <;> rfl
  rw [get, if_neg hpos, hslot]

end ConstantPool

/-! ## What indices lead to -/

/-- The index leads to the constant with its texts and numbers. -/
def PoolItem.Resolves (pool : ConstantPool) (index : UInt16) : PoolItem → Prop
  | utf8 s => pool.utf8 index = .ok s
  | classRef name => ∃ text, pool.get index = .ok (.classRef text) ∧ pool.utf8 text = .ok name
  | string s => ∃ text, pool.get index = .ok (.string text) ∧ pool.utf8 text = .ok s
  | integer n => pool.get index = .ok (.integer n.toUInt32)
  | long n => pool.get index = .ok (.long n.toUInt64)
  | nameAndType name descriptor => pool.nameAndType index = .ok (name, descriptor)
  | memberRef kind owner name descriptor =>
    pool.memberRef index = .ok ⟨kind.tag, owner, name, descriptor⟩

namespace ConstantPool

variable {pool : ConstantPool} {index : UInt16}

theorem utf8_of_get {s : Text} (h : pool.get index = .ok (.utf8 s)) : pool.utf8 index = .ok s := by
  rw [utf8, h]
  rfl

theorem className_of_resolves {name : Text} (h : (PoolItem.classRef name).Resolves pool index) :
    pool.className index = .ok name := by
  obtain ⟨text, hclass, htext⟩ := h
  rw [className, hclass]
  exact htext

theorem optionalClass_of_resolves {name : Text} (h : (PoolItem.classRef name).Resolves pool index) :
    pool.OptionalClass index name := by
  have hname := className_of_resolves h
  obtain ⟨text, hclass, -⟩ := h
  have hpos : index ≠ 0 := by
    rintro rfl
    simp [get] at hclass
  rwa [OptionalClass, if_neg hpos]

theorem nameAndType_of_get {name descriptor : Text} {i j : UInt16}
    (h : pool.get index = .ok (.nameAndType i j)) (hname : pool.utf8 i = .ok name)
    (hdescriptor : pool.utf8 j = .ok descriptor) :
    pool.nameAndType index = .ok (name, descriptor) := by
  rw [nameAndType, h]
  change (do return (← pool.utf8 i, ← pool.utf8 j)) = _
  rw [hname, hdescriptor]
  rfl

theorem memberRef_of_get {c : Constant} {i j : UInt16} {owner name descriptor : Text}
    (h : pool.get index = .ok c) (hparts : refParts? c = some (i, j))
    (howner : pool.className i = .ok owner)
    (hsignature : pool.nameAndType j = .ok (name, descriptor)) :
    pool.memberRef index = .ok ⟨c.tag, owner, name, descriptor⟩ := by
  simp [memberRef, h, hparts, howner, hsignature, Except.mapError, bind, Except.bind, pure,
    Except.pure]

end ConstantPool

/-! ## Entering constants -/

namespace Assembler

variable {α β γ : Type}

/-- The property holds of every pool that begins with the constants, if its indices fit in sixteen
bits. -/
def Always (cs : List Constant) (p : ConstantPool → Prop) : Prop :=
  ∀ more, (ConstantPool.ofConstants (cs ++ more)).size < 65536 → p (.ofConstants (cs ++ more))

theorem Always.append {cs : List Constant} {p : ConstantPool → Prop} (h : Always cs p)
    (more : List Constant) : Always (cs ++ more) p := by
  intro later hfits
  rw [List.append_assoc] at hfits ⊢
  exact h (more ++ later) hfits

/-- The class file under construction apart from its constants. -/
def outline (a : Assembler) : Assembler := { a with pool := [], slots := 0, labels := [] }

/-- The assembler has entered these constants, and each label leads to the constant that it was made
for, in this pool and in every later one. -/
structure Entered (a : Assembler) (cs : List Constant) : Prop where
  pool : a.pool = cs.map Constant.octets
  slots : a.slots = (ConstantPool.ofConstants cs).size.toUInt16
  plain : ∀ c ∈ cs, c.Plain
  labels : ∀ e ∈ a.labels, ∃ item : PoolItem,
    item.Valid ∧ item.label = e.1 ∧ Always cs (item.Resolves · e.2)

/-- If the first property holds of every later pool, the step enters constants only, and then the
second one holds of its result and of every later pool. -/
def Enters (p : ConstantPool → Prop) (x : Assembly α) (q : α → ConstantPool → Prop) : Prop :=
  ∀ (a : Assembler) (cs : List Constant), Entered a cs → Always cs p →
    ∃ more, Entered (x.run a).2 (cs ++ more) ∧ outline (x.run a).2 = outline a ∧
      Always (cs ++ more) (q (x.run a).1)

namespace Enters

variable {p : ConstantPool → Prop} {q : α → ConstantPool → Prop} {r : β → ConstantPool → Prop}
  {x : Assembly α} {f : α → Assembly β}

protected theorem pure {v : α} (h : ∀ pool, p pool → q v pool) : Enters p (pure v) q := by
  intro a cs ha hp
  refine ⟨[], ?_, rfl, fun more hfits => h _ ?_⟩
  · rwa [List.append_nil]
  · rw [List.append_nil] at hfits ⊢
    exact hp more hfits

/-- What held before a step holds after it. -/
protected theorem bind (hx : Enters p x q)
    (hf : ∀ v, Enters (fun pool => p pool ∧ q v pool) (f v) r) : Enters p (x >>= f) r := by
  intro a cs ha hp
  obtain ⟨more, ha', hsame, hq⟩ := hx a cs ha hp
  obtain ⟨later, hb, hsame', hr⟩ := hf (x.run a).1 (x.run a).2 (cs ++ more) ha'
    fun rest hfits => ⟨(hp.append more) rest hfits, hq rest hfits⟩
  rw [List.append_assoc] at hb hr
  exact ⟨more ++ later, hb, hsame'.trans hsame, hr⟩

theorem assuming {p' : ConstantPool → Prop} (h : Enters p x q) (hp : ∀ pool, p' pool → p pool) :
    Enters p' x q := by
  intro a cs ha hp'
  exact h a cs ha fun rest hfits => hp _ (hp' rest hfits)

theorem imp {q' : α → ConstantPool → Prop} (h : Enters p x q)
    (hq : ∀ v pool, p pool → q v pool → q' v pool) : Enters p x q' := by
  intro a cs ha hp
  obtain ⟨more, ha', hsame, hq'⟩ := h a cs ha hp
  exact ⟨more, ha', hsame, fun rest hfits => hq _ _ ((hp.append more) rest hfits) (hq' rest hfits)⟩

theorem mapM {items : List γ} {f : γ → Assembly α} {q : γ → α → ConstantPool → Prop}
    (h : ∀ item ∈ items, Enters p (f item) (q item)) :
    Enters p (items.mapM f) fun values pool =>
      List.Forall₂ (fun item value => q item value pool) items values := by
  induction items with
  | nil => exact .pure fun _ _ => .nil
  | cons item items ih =>
    rw [List.mapM_cons]
    refine (h item (by simp)).bind fun value => ?_
    have hrest := ih fun other hother => h other (by simp [hother])
    refine (hrest.assuming fun _ hp => hp.1).bind fun values => ?_
    exact .pure fun _ hp => .cons hp.1.2 hp.2

end Enters

theorem run_enter_of_lookup {a : Assembler} {label : Text} {index : UInt16}
    (h : a.labels.lookup label = some index) (width : UInt16) (constant : Bytes) :
    (enter label width constant).run a = (index, a) := by
  unfold enter
  simp only [StateT.run_bind, StateT.run_get, pure_bind, h]
  rfl

theorem run_enter_of_new {a : Assembler} {label : Text} (h : a.labels.lookup label = none)
    (width : UInt16) (constant : Bytes) :
    (enter label width constant).run a = (a.slots, { a with
      pool := a.pool ++ [constant]
      slots := a.slots + width
      labels := (label, a.slots) :: a.labels }) := by
  unfold enter
  simp only [StateT.run_bind, StateT.run_get, pure_bind, h]
  rfl

section Entering

variable {p : ConstantPool → Prop}

/-- A constant is entered, or was entered before under the same label. -/
theorem enters_enter (item : PoolItem) (c : Constant) {width : UInt16} (hvalid : item.Valid)
    (hplain : c.Plain) (hwidth : width = c.slots.length.toUInt16)
    (hresolves : ∀ pool index, p pool → pool.get index = .ok c → item.Resolves pool index) :
    Enters p (enter item.label width c.octets) fun index pool => item.Resolves pool index := by
  intro a cs ha hp
  cases hlookup : a.labels.lookup item.label with
  | some index =>
    obtain ⟨front, back, hlabels, -⟩ := List.lookup_eq_some_iff.mp hlookup
    obtain ⟨found, hfound, hlabel, hindex⟩ := ha.labels (item.label, index) (by simp [hlabels])
    -- The label was made for this very constant, so the index that it gave leads there.
    obtain rfl := PoolItem.eq_of_label_eq hfound hvalid hlabel
    rw [run_enter_of_lookup hlookup]
    refine ⟨[], ?_, rfl, hindex.append []⟩
    rwa [List.append_nil]
  | none =>
    -- The count of indices may wrap around, but then no later pool fits and nothing is claimed.
    have hnew : Always (cs ++ [c]) (item.Resolves · a.slots) := by
      intro more hfits
      have hlater := (hp.append [c]) more hfits
      rw [List.append_assoc, List.singleton_append] at hfits hlater ⊢
      refine hresolves _ _ hlater ?_
      rw [ha.slots]
      exact ConstantPool.get_ofConstants hfits
    rw [run_enter_of_new hlookup]
    refine ⟨[c], ⟨?_, ?_, ?_, ?_⟩, rfl, hnew⟩
    · simp [ha.pool]
    · simp [ha.slots, hwidth, ConstantPool.size_ofConstants_append]
    · intro d hd
      rcases List.mem_append.mp hd with hd | hd
      · exact ha.plain d hd
      · rwa [List.mem_singleton.mp hd]
    · intro e he
      rcases List.mem_cons.mp he with rfl | he
      · exact ⟨item, hvalid, rfl, hnew⟩
      · obtain ⟨found, hfound, hlabel, hindex⟩ := ha.labels e he
        exact ⟨found, hfound, hlabel, hindex.append [c]⟩

theorem enters_utf8 {s : Text} (h : s.Plain) :
    Enters p (utf8 s) fun index pool => pool.utf8 index = .ok s :=
  enters_enter (.utf8 s) (.utf8 s) trivial h rfl fun _ _ _ hget =>
    ConstantPool.utf8_of_get hget

theorem enters_classRef {name : Text} (h : name.Plain) :
    Enters p (classRef name) fun index pool => (PoolItem.classRef name).Resolves pool index := by
  refine (enters_utf8 h).bind fun text => ?_
  exact enters_enter (.classRef name) (.classRef text) trivial trivial rfl
    fun _ _ hp hget => ⟨text, hget, hp.2⟩

theorem enters_string {s : Text} (h : s.Plain) :
    Enters p (string s) fun index pool => (PoolItem.string s).Resolves pool index := by
  refine (enters_utf8 h).bind fun text => ?_
  exact enters_enter (.string s) (.string text) trivial trivial rfl
    fun _ _ hp hget => ⟨text, hget, hp.2⟩

theorem enters_nameAndType {name descriptor : Text} (hname : name.Plain)
    (hdescriptor : descriptor.Plain) (hvalid : (PoolItem.nameAndType name descriptor).Valid) :
    Enters p (nameAndType name descriptor) fun index pool =>
      pool.nameAndType index = .ok (name, descriptor) := by
  refine (enters_utf8 hname).bind fun i => (enters_utf8 hdescriptor).bind fun j => ?_
  exact enters_enter (.nameAndType name descriptor) (.nameAndType i j) hvalid trivial rfl
    fun _ _ hp hget => ConstantPool.nameAndType_of_get hget hp.1.2 hp.2

/-- The octets of a member reference are those of a constant with the two indices. -/
theorem exists_memberConstant (kind : MemberKind) (i j : UInt16) :
    ∃ c : Constant, c.tag = kind.tag ∧ ConstantPool.refParts? c = some (i, j) ∧ c.Plain ∧
      c.slots.length = 1 ∧ c.octets = kind.octet :: u2Bytes i ++ u2Bytes j := by
  cases kind with
  | field => exact ⟨.fieldRef i j, rfl, rfl, trivial, rfl, rfl⟩
  | method => exact ⟨.methodRef i j, rfl, rfl, trivial, rfl, rfl⟩
  | interfaceMethod => exact ⟨.interfaceMethodRef i j, rfl, rfl, trivial, rfl, rfl⟩

theorem enters_memberRef {kind : MemberKind} {owner name descriptor : Text} (howner : owner.Plain)
    (hname : name.Plain) (hdescriptor : descriptor.Plain)
    (hvalid : (PoolItem.memberRef kind owner name descriptor).Valid) :
    Enters p (memberRef kind owner name descriptor) fun index pool =>
      pool.memberRef index = .ok ⟨kind.tag, owner, name, descriptor⟩ := by
  refine (enters_classRef howner).bind fun i => ?_
  refine (enters_nameAndType hname hdescriptor hvalid.2).bind fun j => ?_
  obtain ⟨c, htag, hparts, hplain, hwidth, hoctets⟩ := exists_memberConstant kind i j
  rw [← hoctets]
  refine enters_enter _ c hvalid hplain (by simp [hwidth]) fun pool index hp hget => ?_
  have hmember := ConstantPool.memberRef_of_get hget hparts
    (ConstantPool.className_of_resolves hp.1.2) hp.2
  rw [htag] at hmember
  exact hmember

end Entering

theorem enters_item {p : ConstantPool → Prop} {i : PoolItem} (hvalid : i.Valid)
    (hplain : ∀ t ∈ i.texts, t.Plain) :
    Enters p (item i) fun index pool => i.Resolves pool index := by
  cases i with
  | utf8 s => exact enters_utf8 (hplain s (by simp [PoolItem.texts]))
  | classRef name => exact enters_classRef (hplain name (by simp [PoolItem.texts]))
  | string s => exact enters_string (hplain s (by simp [PoolItem.texts]))
  | integer n =>
    exact enters_enter (.integer n) (.integer n.toUInt32) trivial trivial rfl
      fun _ _ _ hget => hget
  | long n =>
    exact enters_enter (.long n) (.long n.toUInt64) trivial trivial rfl
      fun _ _ _ hget => hget
  | nameAndType name descriptor =>
    exact enters_nameAndType (hplain name (by simp [PoolItem.texts]))
      (hplain descriptor (by simp [PoolItem.texts])) hvalid
  | memberRef kind owner name descriptor =>
    exact enters_memberRef (hplain owner (by simp [PoolItem.texts]))
      (hplain name (by simp [PoolItem.texts])) (hplain descriptor (by simp [PoolItem.texts])) hvalid

end Assembler

end JvmLinkage
