import Mathlib.Data.List.Forall2
import JvmLinkage.Proofs.Declared.Snapshot

/-!
# Decoded classes

Whatever a class file holds, decoding it with tables of descriptors gives a class that was built from
what was read, or fails. One lemma for each part of the decoder says what its result consists of.
-/

namespace JvmLinkage

/-! ## Results with a property -/

/-- The computation always fails in the same way or gives the same value, which has the property. -/
def Ensures {m : Type → Type} [Monad m] [Determined m] {ε α : Type} (x : ExceptT ε m α)
    (p : α → Prop) : Prop :=
  ∃ r, Yields x r ∧ ∀ a, r = .ok a → p a

namespace Ensures

variable {m : Type → Type} [Monad m] [Determined m] {ε δ α β : Type} {p : α → Prop} {q : β → Prop}

protected theorem pure {a : α} (h : p a) : Ensures (pure a : ExceptT ε m α) p := by
  refine ⟨.ok a, .pure a, ?_⟩
  rintro _ ⟨⟩
  exact h

protected theorem throw (e : ε) : Ensures (throw e : ExceptT ε m α) p :=
  ⟨.error e, .throw e, nofun⟩

protected theorem bind {x : ExceptT ε m α} {f : α → ExceptT ε m β} (hx : Ensures x p)
    (hf : ∀ a, p a → Ensures (f a) q) : Ensures (x >>= f) q := by
  obtain ⟨r, hr, hp⟩ := hx
  cases r with
  | error e => exact ⟨.error e, hr.bind (g := fun _ => .error e) nofun, nofun⟩
  | ok a =>
    obtain ⟨r, hr', hq⟩ := hf a (hp a rfl)
    exact ⟨r, hr.bind_ok hr', hq⟩

protected theorem map {x : ExceptT ε m α} (f : α → β) (hx : Ensures x fun a => q (f a)) :
    Ensures (f <$> x) q := by
  obtain ⟨r, hr, hq⟩ := hx
  refine ⟨f <$> r, hr.map f, ?_⟩
  cases r with
  | error e => nofun
  | ok a =>
    rintro _ ⟨⟩
    exact hq a rfl

protected theorem adapt {x : ExceptT ε m α} (f : ε → δ) (hx : Ensures x p) :
    Ensures (ExceptT.adapt f x) p := by
  obtain ⟨r, hr, hp⟩ := hx
  refine ⟨r.mapError f, hr.adapt f, ?_⟩
  cases r with
  | error e => nofun
  | ok a =>
    rintro _ ⟨⟩
    exact hp a rfl

protected theorem mono {x : ExceptT ε m α} {p' : α → Prop} (hx : Ensures x p)
    (h : ∀ a, p a → p' a) : Ensures x p' := by
  obtain ⟨r, hr, hp⟩ := hx
  exact ⟨r, hr, fun a ha => h a (hp a ha)⟩

/-- What each item gives, the items give in their order. -/
theorem mapM_forall₂ {read : β → ExceptT ε m α} {gives : β → α → Prop}
    (h : ∀ b, Ensures (read b) (gives b)) (items : List β) :
    Ensures (items.mapM read) (List.Forall₂ gives items) := by
  have key : ∀ (front items : List β) (done : List α), List.Forall₂ gives front done.reverse →
      Ensures (List.mapM.loop read items done) (List.Forall₂ gives (front ++ items)) := by
    intro front items
    induction items generalizing front with
    | nil =>
      intro done hdone
      rw [List.append_nil]
      exact .pure hdone
    | cons b items ih =>
      intro done hdone
      refine (h b).bind fun a ha => ?_
      have hdone : List.Forall₂ gives (front ++ [b]) (a :: done).reverse := by
        rw [List.reverse_cons]
        exact List.rel_append hdone (.cons ha .nil)
      simpa using ih (front ++ [b]) (a :: done) hdone
  exact key [] items [] .nil

theorem mapM {read : β → ExceptT ε m α} (h : ∀ b, Ensures (read b) p) (items : List β) :
    Ensures (items.mapM read) fun results => ∀ a ∈ results, p a := by
  refine (mapM_forall₂ h items).mono fun results hresults => ?_
  clear h
  induction hresults with
  | nil => nofun
  | cons hfirst _ ih => exact List.forall_mem_cons.mpr ⟨hfirst, ih⟩

/-- What every step keeps for the items up to there, the whole run keeps for all of them. -/
theorem foldlM_of_done {step : α → β → ExceptT ε m α} {items : List β} {keeps : List β → α → Prop}
    (h : ∀ done b a, done ++ [b] <+: items → keeps done a →
      Ensures (step a b) (keeps (done ++ [b]))) {a : α} (ha : keeps [] a) :
    Ensures (items.foldlM step a) (keeps items) := by
  have key : ∀ (left done : List β) (a : α), done ++ left = items → keeps done a →
      Ensures (left.foldlM step a) (keeps items) := by
    intro left
    induction left with
    | nil =>
      rintro done a rfl ha
      rw [List.append_nil]
      exact .pure ha
    | cons b left ih =>
      intro done a hitems ha
      have hnext : done ++ [b] ++ left = items := by simpa using hitems
      exact (h done b a ⟨left, hnext⟩ ha).bind fun a' ha' => ih (done ++ [b]) a' hnext ha'
  exact key items [] a rfl ha

/-- What every step keeps, the whole run keeps. -/
theorem foldlM {step : α → β → ExceptT ε m α} (h : ∀ a b, p a → Ensures (step a b) p)
    (items : List β) {a : α} (ha : p a) : Ensures (items.foldlM step a) p :=
  foldlM_of_done (fun _ b a _ hkeeps => h a b hkeeps) ha

theorem constant (places : List Place) (r : Except Fault α) :
    Ensures (Decoder.constant (m := m) places r) fun a => r = .ok a := by
  cases r with
  | ok a => exact .pure rfl
  | error f => exact .throw _

end Ensures

/-! ## The parts of the decoder -/

namespace Decoder

variable {m : Type → Type} [Monad m] [DescriptorSource m] [FaithfulSource m]

theorem ensures_descriptor {α : Type} (places : List Place) {read : ExceptT Malformed m α}
    {r : Except Malformed α} (h : Yields read r) :
    Ensures (descriptor places read) fun a => r = .ok a := by
  refine ⟨_, h.descriptor, ?_⟩
  cases r with
  | error e => nofun
  | ok a =>
    rintro _ ⟨⟩
    rfl

theorem ensures_className (places : List Place) (name : Text) :
    Ensures (descriptor (m := m) places (DescriptorSource.className name)) ClassName.Accepted :=
  (ensures_descriptor places (FaithfulSource.yields_className name)).mono fun _ h => ⟨name, h⟩

theorem ensures_method (places : List Place) (raw name : Text) (static : Bool) :
    Ensures (descriptor (m := m) places (DescriptorSource.method raw name static)) Method.Accepted :=
  (ensures_descriptor places (FaithfulSource.yields_method raw name static)).mono fun _ h =>
    Method.accepted_of_parse h

theorem ensures_field (places : List Place) (name raw : Text) :
    Ensures (descriptor (m := m) places (DescriptorSource.field name raw)) Field.Accepted :=
  (ensures_descriptor places (FaithfulSource.yields_field name raw)).mono fun _ h =>
    Field.accepted_of_parse h

theorem ensures_fieldType (places : List Place) (raw : Text) :
    Ensures (descriptor (m := m) places (DescriptorSource.fieldType raw)) FieldType.WellFormed :=
  (ensures_descriptor places (FaithfulSource.yields_fieldType raw)).mono fun _ h =>
    (FieldType.spelled_of_parse h).wellFormed

theorem ensures_caughtAt (handlers : List ExceptionHandler) (pc : Nat) :
    Ensures (caughtAt (m := m) handlers pc) fun caught => ∀ c ∈ caught, c.Accepted := by
  refine (Ensures.mapM (fun _ => ensures_className _ _) _).bind fun caught hcaught => ?_
  exact .pure fun c hc => hcaught c (Ascending.mem_of_mem_ofList hc)

variable (pool : ConstantPool) (handlers : List ExceptionHandler)

theorem ensures_call? (line : Int) (i : Instruction) :
    Ensures (call? (m := m) pool handlers line i) fun call => ∀ c ∈ call, c.Accepted := by
  refine (Ensures.constant _ _).bind fun ref _ => ?_
  split
  · exact .pure nofun
  · refine (ensures_className _ _).bind fun owner howner => ?_
    refine (ensures_method _ _ _ _).bind fun method hmethod => ?_
    refine (ensures_caughtAt _ _).bind fun caught hcaught => ?_
    refine .pure ?_
    rintro _ ⟨⟩
    exact ⟨howner, hmethod, hcaught⟩

theorem ensures_access? (line : Int) (i : Instruction) :
    Ensures (access? (m := m) pool handlers line i) fun access => ∀ a ∈ access, a.Accepted := by
  refine (Ensures.constant _ _).bind fun ref _ => ?_
  split
  · exact .pure nofun
  · refine (ensures_className _ _).bind fun owner howner => ?_
    refine (ensures_field _ _ _).bind fun field hfield => ?_
    refine (ensures_caughtAt _ _).bind fun caught hcaught => ?_
    refine .pure ?_
    rintro _ ⟨⟩
    exact ⟨howner, hfield, hcaught⟩

theorem ensures_load? (index : UInt16) :
    Ensures (load? (m := m) pool index) fun load => ∀ c ∈ load, c.Accepted := by
  refine (Ensures.constant _ _).bind fun entry _ => ?_
  split
  case h_1 nameIndex =>
    refine (Ensures.constant _ _).bind fun name _ => ?_
    split
    · refine (ensures_fieldType _ _).bind fun type htype => ?_
      split
      · refine .pure ?_
        rintro _ ⟨⟩
        exact ClassName.WellFormed.accepted htype.2
      · exact .pure nofun
    · refine .map _ ?_
      obtain ⟨r, hr, hname⟩ := ensures_className (m := m) [Place.part "ldc"] name
      refine ⟨r, hr, fun c hc => ?_⟩
      rintro _ ⟨⟩
      exact hname c hc
  case h_2 => exact .pure nofun

/-- All that was collected was read from texts. -/
structure Evidence.Accepted (e : Evidence) : Prop where
  calls : ∀ c ∈ e.calls, c.Accepted
  accesses : ∀ a ∈ e.accesses, a.Accepted
  loads : ∀ c ∈ e.loads, c.Accepted

theorem ensures_visit (code : Code) (e : Evidence) (i : Instruction) (he : e.Accepted) :
    Ensures (visit (m := m) pool code e i) Evidence.Accepted := by
  have append {α : Type} {p : α → Prop} {front : List α} {last : Option α}
      (hfront : ∀ a ∈ front, p a) (hlast : ∀ a ∈ last, p a) : ∀ a ∈ front ++ last.toList, p a := by
    intro a ha
    rcases List.mem_append.mp ha with ha | ha
    · exact hfront a ha
    · exact hlast a (Option.mem_toList.mp ha)
  unfold visit
  dsimp only
  split
  · refine (ensures_call? _ _ _ _).bind fun call hcall => .pure ?_
    exact ⟨append he.calls hcall, he.accesses, he.loads⟩
  · split
    · refine (ensures_access? _ _ _ _).bind fun access haccess => .pure ?_
      exact ⟨he.calls, append he.accesses haccess, he.loads⟩
    · split
      · refine (ensures_load? _ _).bind fun load hload => .pure ?_
        exact ⟨he.calls, he.accesses, append he.loads hload⟩
      · split
        · refine (ensures_load? _ _).bind fun load hload => .pure ?_
          exact ⟨he.calls, he.accesses, append he.loads hload⟩
        · exact .pure ⟨he.calls, he.accesses, he.loads⟩

theorem ensures_collect (code : Code) :
    Ensures (collect (m := m) pool code) Evidence.Accepted := by
  unfold collect
  dsimp only
  refine (Ensures.foldlM (fun e i he => ensures_visit pool code e i he) _ ?_).bind fun e he => ?_
  · exact ⟨by simp, by simp, by simp⟩
  · split
    · exact .pure he
    · exact .throw _

theorem ensures_decodeMethod (member : Member) :
    Ensures (decodeMethod (m := m) pool member) fun found =>
      found.1.Accepted ∧ ∀ c ∈ found.2, c.Accepted := by
  unfold decodeMethod
  dsimp only
  split
  on_goal 1 => refine (Ensures.pure Method.accepted_classInit).bind fun method hmethod => ?_
  on_goal 2 => refine (ensures_method _ _ _ _).bind fun method hmethod => ?_
  -- From the signature on, all methods are decoded in the same way.
  all_goals
    split
    · exact .pure ⟨⟨hmethod, by simp, by simp⟩, by simp⟩
    · refine (ensures_collect _ _).bind fun e he => .pure ?_
      exact ⟨⟨hmethod, he.calls, he.accesses⟩, he.loads⟩

theorem ensures_addMethod (b : ClassBuilder) (member : Member) (hb : b.Accepted) :
    Ensures (addMethod (m := m) pool b member) ClassBuilder.Accepted := by
  refine (ensures_decodeMethod _ _).bind fun found hfound => ?_
  obtain ⟨declared, loads⟩ := found
  obtain ⟨hdeclared, hloads⟩ := hfound
  have hwith : (b.addLoads loads).Accepted := by
    refine { hb with loads := fun c hc => ?_ }
    rcases List.mem_append.mp hc with hc | hc
    · exact hb.loads c hc
    · exact hloads c hc
  dsimp only
  split
  case h_1 b' hb' => exact .pure (hwith.addMethod? hdeclared hb')
  case h_2 => exact .throw _

theorem ensures_decodeClassFile (file : ClassFile) :
    Ensures (decodeClassFile (m := m) file) DeclaredClass.Accepted := by
  have hparts (name : ClassName) (hname : name.Accepted) (superClass : List ClassName)
      (hsuper : ∀ c ∈ superClass, c.Accepted) :
      Ensures (do
        let interfaces ← file.interfaces.mapM fun i =>
          descriptor [.part "interface"] (DescriptorSource.className i)
        let fields ← file.fields.mapM fun f =>
          descriptor [] (DescriptorSource.field f.name f.descriptor)
        return ((ClassBuilder.start name).addParents (superClass ++ interfaces)).addFields fields :
          ExceptT Fault m ClassBuilder) ClassBuilder.Accepted := by
    refine (Ensures.mapM (fun _ => ensures_className _ _) _).bind fun interfaces hinterfaces => ?_
    refine (Ensures.mapM (fun _ => ensures_field _ _ _) _).bind fun fields hfields => .pure ?_
    constructor
    case name => exact hname
    case parents =>
      intro c hc
      rcases List.mem_append.mp (show c ∈ superClass ++ interfaces from hc) with hc | hc
      · exact hsuper c hc
      · exact hinterfaces c hc
    case loads => exact fun c hc => absurd hc List.not_mem_nil
    case fields => exact hfields
    case methods => exact fun d hd => absurd hd List.not_mem_nil
  have hmethods (b : ClassBuilder) (hb : b.Accepted) :
      Ensures (m := m) (file.methods.foldlM (fun b member =>
        attributed file (member.name ++ member.descriptor) (addMethod file.pool b member)) b)
        ClassBuilder.Accepted :=
    Ensures.foldlM (fun b member hb => (ensures_addMethod _ b member hb).adapt _) _ hb
  unfold decodeClassFile
  refine Ensures.bind (Ensures.adapt _ ?_) fun b hb =>
    (hmethods b hb).bind fun b hb => .pure ⟨b, hb, rfl⟩
  refine (ensures_className _ _).bind fun name hname => ?_
  dsimp only
  split
  · exact (Ensures.pure (by simp)).bind (hparts name hname)
  · refine (ensures_className _ _).bind fun c hc => ?_
    refine (Ensures.pure ?_).bind (hparts name hname)
    simpa using hc

/-- Every class that is decoded was built from what was read. -/
theorem ensures_decode (data : Bytes) : Ensures (decode (m := m) data) DeclaredClass.Accepted := by
  unfold decode
  split
  · exact ensures_decodeClassFile _
  · exact .throw _

end Decoder

theorem DeclaredClass.accepted_of_decode {data : Bytes} {c : DeclaredClass}
    (h : DeclaredClass.decode data = .ok c) : c.Accepted := by
  obtain ⟨r, hr, hc⟩ := Decoder.ensures_decode (m := Id) data
  exact hc c (hr.symm.trans h)

end JvmLinkage
