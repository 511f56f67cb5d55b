import JvmLinkage.Proofs.Declared.Snapshot
import JvmLinkage.Proofs.Descriptor.Eviction

/-!
# One set of tables for everything

Descriptors are read and class files are decoded one after the other with one set of tables, from
which entries may be dropped whenever they are used. Every answer and every failure is the one that
tables without entries give.
-/

namespace JvmLinkage

/-! ## Computations with one outcome -/

theorem Determined.gives_mapM {m : Type → Type} [Monad m] [Determined m] {α β : Type}
    {work : β → m α} {result : β → α} (h : ∀ b, Gives (work b) (result b)) (items : List β) :
    Gives (items.mapM work) (items.map result) := by
  have key : ∀ (items : List β) (done : List α),
      Gives (List.mapM.loop work items done) (done.reverse ++ items.map result) := by
    intro items
    induction items with
    | nil =>
      intro done
      rw [List.map_nil, List.append_nil]
      exact gives_pure done.reverse
    | cons b items ih =>
      intro done
      refine gives_bind (h b) ?_
      simpa using ih (result b :: done)
  exact key items []

theorem Determined.run_mapM {σ α β : Type} {invariant : σ → Prop} {work : β → StateM σ α}
    {result : β → α} (h : ∀ b, (ofInvariant invariant).Gives (work b) (result b)) (items : List β)
    {s : σ} (hs : invariant s) : ((items.mapM work).run s).1 = items.map result := by
  let _ : Determined (StateM σ) := ofInvariant invariant
  obtain ⟨_, -, hrun⟩ := gives_mapM h items s hs
  rw [hrun]

/-- The computation has the outcome that another one has on its own. -/
def Agrees {m : Type → Type} [Monad m] [Determined m] {ε α : Type} (x : ExceptT ε m α)
    (y : ExceptT ε Id α) : Prop :=
  Yields x y.run.run

namespace Agrees

variable {m : Type → Type} [Monad m] [Determined m] {ε δ α β : Type}

protected theorem pure (a : α) : Agrees (pure a : ExceptT ε m α) (pure a) := Yields.pure a

protected theorem throw (e : ε) : Agrees (throw e : ExceptT ε m α) (throw e) := Yields.throw e

protected theorem bind {x : ExceptT ε m α} {y : ExceptT ε Id α} {f : α → ExceptT ε m β}
    {g : α → ExceptT ε Id β} (hx : Agrees x y) (hf : ∀ a, Agrees (f a) (g a)) :
    Agrees (x >>= f) (y >>= g) := by
  have hrun : (y >>= g).run.run = (y.run.run >>= fun a => (g a).run.run) := by
    change (y.run >>= ExceptT.bindCont g).run = _
    rw [Id.run_bind]
    cases y.run.run <;> rfl
  rw [Agrees, hrun]
  exact Yields.bind hx fun a _ => hf a

protected theorem map {x : ExceptT ε m α} {y : ExceptT ε Id α} (f : α → β) (hx : Agrees x y) :
    Agrees (f <$> x) (f <$> y) :=
  hx.bind fun a => .pure (f a)

protected theorem adapt {x : ExceptT ε m α} {y : ExceptT ε Id α} (f : ε → δ) (hx : Agrees x y) :
    Agrees (ExceptT.adapt f x) (ExceptT.adapt f y) :=
  Yields.adapt f hx

theorem mapM {read : β → ExceptT ε m α} {read' : β → ExceptT ε Id α}
    (h : ∀ b, Agrees (read b) (read' b)) (items : List β) :
    Agrees (items.mapM read) (items.mapM read') := by
  have key : ∀ (items : List β) (done : List α),
      Agrees (List.mapM.loop read items done) (List.mapM.loop read' items done) := by
    intro items
    induction items with
    | nil => exact fun done => .pure done.reverse
    | cons b items ih => exact fun done => (h b).bind fun a => ih (a :: done)
  exact key items []

theorem foldlM {step : α → β → ExceptT ε m α} {step' : α → β → ExceptT ε Id α}
    (h : ∀ a b, Agrees (step a b) (step' a b)) (items : List β) (a : α) :
    Agrees (items.foldlM step a) (items.foldlM step' a) := by
  induction items generalizing a with
  | nil => exact .pure a
  | cons b items ih => exact (h a b).bind fun a' => ih a'

theorem constant (places : List Place) (r : Except Fault α) :
    Agrees (Decoder.constant (m := m) places r) (Decoder.constant places r) := by
  cases r with
  | ok a => exact .pure a
  | error f => exact .throw _

theorem descriptor {read : ExceptT Malformed m α} {read' : ExceptT Malformed Id α}
    (h : Agrees read read') (places : List Place) :
    Agrees (Decoder.descriptor places read) (Decoder.descriptor places read') := by
  have hrun : (Decoder.descriptor places read').run.run =
      read'.run.run.mapError fun e => ⟨places, .descriptor e⟩ := by
    change ((read'.run >>= fun r => _ : Id _)).run = _
    rw [Id.run_bind]
    cases read'.run.run <;> rfl
  rw [Agrees, hrun]
  exact Yields.descriptor h

end Agrees

/-! ## Decoding -/

namespace Decoder

variable {m : Type → Type} [Monad m] [DescriptorSource m] [FaithfulSource m]

theorem agrees_className (places : List Place) (name : Text) :
    Agrees (descriptor (m := m) places (DescriptorSource.className name))
      (descriptor places (DescriptorSource.className name)) :=
  Agrees.descriptor (FaithfulSource.yields_className name) places

theorem agrees_fieldType (places : List Place) (raw : Text) :
    Agrees (descriptor (m := m) places (DescriptorSource.fieldType raw))
      (descriptor places (DescriptorSource.fieldType raw)) :=
  Agrees.descriptor (FaithfulSource.yields_fieldType raw) places

theorem agrees_method (places : List Place) (raw name : Text) (static : Bool) :
    Agrees (descriptor (m := m) places (DescriptorSource.method raw name static))
      (descriptor places (DescriptorSource.method raw name static)) :=
  Agrees.descriptor (FaithfulSource.yields_method raw name static) places

theorem agrees_field (places : List Place) (name raw : Text) :
    Agrees (descriptor (m := m) places (DescriptorSource.field name raw))
      (descriptor places (DescriptorSource.field name raw)) :=
  Agrees.descriptor (FaithfulSource.yields_field name raw) places

theorem agrees_caughtAt (handlers : List ExceptionHandler) (pc : Nat) :
    Agrees (caughtAt (m := m) handlers pc) (caughtAt handlers pc) :=
  (Agrees.mapM (fun _ => agrees_className _ _) _).bind fun _ => .pure _

variable (pool : ConstantPool)

theorem agrees_call? (handlers : List ExceptionHandler) (line : Int) (i : Instruction) :
    Agrees (call? (m := m) pool handlers line i) (call? pool handlers line i) := by
  refine (Agrees.constant _ _).bind fun ref => ?_
  split
  · exact .pure none
  · refine (agrees_className _ _).bind fun owner => ?_
    refine (agrees_method _ _ _ _).bind fun method => ?_
    exact (agrees_caughtAt _ _).bind fun caught => .pure _

theorem agrees_access? (handlers : List ExceptionHandler) (line : Int) (i : Instruction) :
    Agrees (access? (m := m) pool handlers line i) (access? pool handlers line i) := by
  refine (Agrees.constant _ _).bind fun ref => ?_
  split
  · exact .pure none
  · refine (agrees_className _ _).bind fun owner => ?_
    refine (agrees_field _ _ _).bind fun field => ?_
    exact (agrees_caughtAt _ _).bind fun caught => .pure _

theorem agrees_load? (index : UInt16) :
    Agrees (load? (m := m) pool index) (load? pool index) := by
  refine (Agrees.constant _ _).bind fun found => ?_
  cases found with
  | classRef nameIndex =>
    refine (Agrees.constant _ _).bind fun name => ?_
    split
    · refine (agrees_fieldType _ _).bind fun type => ?_
      split
      · exact .pure _
      · exact .pure none
    · exact (agrees_className _ _).map some
  | _ => exact .pure none

theorem agrees_visit (code : Code) (e : Evidence) (i : Instruction) :
    Agrees (visit (m := m) pool code e i) (visit pool code e i) := by
  unfold visit
  dsimp only
  split
  · exact (agrees_call? pool _ _ _).bind fun call => .pure _
  · split
    · exact (agrees_access? pool _ _ _).bind fun access => .pure _
    · split
      · exact (agrees_load? pool _).bind fun load => .pure _
      · split
        · exact (agrees_load? pool _).bind fun load => .pure _
        · exact .pure _

theorem agrees_collect (code : Code) : Agrees (collect (m := m) pool code) (collect pool code) := by
  unfold collect
  obtain ⟨instructions, ended⟩ := Instruction.walk code.code
  refine (Agrees.foldlM (agrees_visit pool code) _ _).bind fun e => ?_
  cases ended with
  | none => exact .pure e
  | some cause => exact .throw _

theorem agrees_decodeMethod (member : Member) :
    Agrees (decodeMethod (m := m) pool member) (decodeMethod pool member) := by
  unfold decodeMethod
  generalize member.code = body
  cases body with
  | none =>
    dsimp only
    split
    · exact (Agrees.pure _).bind fun method => .pure _
    · exact (agrees_method _ _ _ _).bind fun method => .pure _
  | some code =>
    dsimp only
    split
    · exact (Agrees.pure _).bind fun method => (agrees_collect pool code).bind fun e => .pure _
    · exact (agrees_method _ _ _ _).bind fun method =>
        (agrees_collect pool code).bind fun e => .pure _

theorem agrees_addMethod (b : ClassBuilder) (member : Member) :
    Agrees (addMethod (m := m) pool b member) (addMethod pool b member) := by
  refine (agrees_decodeMethod pool member).bind fun decoded => ?_
  obtain ⟨declared, loads⟩ := decoded
  dsimp only
  cases (b.addLoads loads).addMethod? declared with
  | none => exact .throw _
  | some b => exact .pure b

theorem agrees_decodeClassFile (file : ClassFile) :
    Agrees (decodeClassFile (m := m) file) (decodeClassFile file) := by
  refine Agrees.bind (Agrees.adapt _ ?_) fun b => ?_
  · refine (agrees_className _ _).bind fun name => ?_
    dsimp only
    split
    on_goal 1 => refine (Agrees.pure _).bind fun superClass => ?_
    on_goal 2 => refine (agrees_className _ _).bind fun c => (Agrees.pure _).bind fun superClass => ?_
    -- With or without a superclass, interfaces and fields are read in the same way.
    all_goals
      refine (Agrees.mapM (fun _ => agrees_className _ _) _).bind fun interfaces => ?_
      exact (Agrees.mapM (fun _ => agrees_field _ _ _) _).bind fun fields => .pure _
  · refine (Agrees.foldlM (fun b member => ?_) _ _).bind fun b => .pure _
    exact (agrees_addMethod file.pool b member).adapt _

/-- Whatever a class file holds, any faithful source decodes it in the same way. -/
theorem agrees_decode (data : Bytes) : Agrees (decode (m := m) data) (decode data) := by
  unfold decode
  cases ClassFile.parse data with
  | ok file => exact agrees_decodeClassFile file
  | error f => exact .throw _

end Decoder

/-! ## Requests -/

/-- What can be asked for. -/
inductive DescriptorRequest where
  | className (name : Text)
  | fieldType (raw : Text)
  | method (raw name : Text) (static : Bool)
  | field (name raw : Text)

/-- What a request is answered with. -/
inductive DescriptorAnswer where
  | className (c : ClassName)
  | fieldType (t : FieldType)
  | method (s : Method)
  | field (f : Field)

namespace DescriptorRequest

variable {m : Type → Type} [Monad m] [DescriptorSource m]

/-- Reads what is asked for. -/
def answer : DescriptorRequest → ExceptT Malformed m DescriptorAnswer
  | className name => .className <$> DescriptorSource.className name
  | fieldType raw => .fieldType <$> DescriptorSource.fieldType raw
  | method raw name static => .method <$> DescriptorSource.method raw name static
  | field name raw => .field <$> DescriptorSource.field name raw

theorem agrees_answer [FaithfulSource m] (r : DescriptorRequest) :
    Agrees (r.answer (m := m)) r.answer := by
  cases r with
  | className name => exact Agrees.map _ (FaithfulSource.yields_className name)
  | fieldType raw => exact Agrees.map _ (FaithfulSource.yields_fieldType raw)
  | method raw name static => exact Agrees.map _ (FaithfulSource.yields_method raw name static)
  | field name raw => exact Agrees.map _ (FaithfulSource.yields_field name raw)

end DescriptorRequest

/-! ## Shared tables -/

/-- With tables that are sound to begin with, work has the outcome that it has on its own. -/
theorem Agrees.run_interner {ε α : Type} {x : ExceptT ε (StateM Interner) α} {y : ExceptT ε Id α}
    (h : Agrees x y) (size : Int) : (x.run.run (.ofCapacity size)).1 = y.run.run := by
  obtain ⟨_, -, hrun⟩ := h (.ofCapacity size) (Interner.sound_ofCapacity size)
  rw [hrun]

/-- Descriptors that are read and class files that are decoded one after the other, with one set of
tables of any size, come out as with tables of their own, also when entries are dropped from the
tables at any time. -/
theorem interning_unobservable (size fresh : Int) (evictions : List Eviction)
    (requests : List DescriptorRequest) (files : List Bytes) :
    let answers := requests.map fun r =>
      ((r.answer (m := StateM Interner)).run.run (.ofCapacity fresh)).1
    let classes := files.map fun data =>
      ((Decoder.decode (m := StateM Interner) data).run.run (.ofCapacity fresh)).1
    ((requests.mapM fun r => r.answer.run : StateM Interner _).run (.ofCapacity size)).1 = answers ∧
    ((requests.mapM fun r => r.answer.run : Forgetting _).run ⟨.ofCapacity size, evictions⟩).1 =
      answers ∧
    DeclaredClass.decodeAll (.ofCapacity size) files = classes ∧
    ((files.mapM fun data => (Decoder.decode data).run : Forgetting _).run
      ⟨.ofCapacity size, evictions⟩).1 = classes := by
  have htables := Interner.sound_ofCapacity size
  simp only [(DescriptorRequest.agrees_answer _).run_interner,
    (Decoder.agrees_decode _).run_interner]
  refine ⟨?_, ?_, ?_, ?_⟩
  · exact Determined.run_mapM DescriptorRequest.agrees_answer requests htables
  · exact Determined.run_mapM DescriptorRequest.agrees_answer requests htables
  · exact Determined.run_mapM Decoder.agrees_decode files htables
  · exact Determined.run_mapM Decoder.agrees_decode files htables

end JvmLinkage
