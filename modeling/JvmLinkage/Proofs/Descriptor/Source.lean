import JvmLinkage.Descriptor.Interner
import JvmLinkage.Proofs.Descriptor.Methods

/-!
# Sources of descriptors

Descriptors are read afresh, or with tables of what was read before. A source is faithful if it
gives what reading afresh gives. Tables in which every entry is what reading its key gives are
faithful, and reading keeps them so, whatever was dropped from them.
-/

namespace JvmLinkage

/-! ## What computations give -/

/-- `Gives x a` says that `x` gives `a` from every state in which it may be run, and leaves such a
state behind. -/
class Determined (m : Type → Type) [Monad m] where
  Gives {α : Type} : m α → α → Prop
  gives_pure {α : Type} (a : α) : Gives (pure a) a
  gives_bind {α β : Type} {x : m α} {f : α → m β} {a : α} {b : β} :
    Gives x a → Gives (f a) b → Gives (x >>= f) b
  gives_map {α β : Type} {x : m α} {a : α} (f : α → β) : Gives x a → Gives (f <$> x) (f a)

instance : Determined Id where
  Gives x a := x.run = a
  gives_pure _ := rfl
  gives_bind hx hf := by
    subst hx
    exact hf
  gives_map f hx := congrArg f hx

/-- States that satisfy an invariant are those in which a computation may be run. -/
@[reducible]
def Determined.ofInvariant {σ : Type} (invariant : σ → Prop) : Determined (StateM σ) where
  Gives x a := ∀ s, invariant s → ∃ t, invariant t ∧ x.run s = (a, t)
  gives_pure a s hs := ⟨s, hs, rfl⟩
  gives_bind hx hf s hs := by
    obtain ⟨t, ht, hrun⟩ := hx s hs
    obtain ⟨u, hu, hnext⟩ := hf t ht
    refine ⟨u, hu, ?_⟩
    rw [StateT.run_bind, hrun]
    exact hnext
  gives_map f hx s hs := by
    obtain ⟨t, ht, hrun⟩ := hx s hs
    refine ⟨t, ht, ?_⟩
    rw [StateT.run_map, hrun]
    rfl

/-- The computation gives a value or fails, always in the same way. -/
def Yields {m : Type → Type} [Monad m] [Determined m] {ε α : Type} (x : ExceptT ε m α)
    (r : Except ε α) : Prop :=
  Determined.Gives x.run r

namespace Yields

variable {m : Type → Type} [Monad m] [Determined m] {ε δ α β : Type}

protected theorem pure (a : α) : Yields (pure a : ExceptT ε m α) (.ok a) :=
  Determined.gives_pure (Except.ok a)

protected theorem throw (e : ε) : Yields (throw e : ExceptT ε m α) (.error e) :=
  Determined.gives_pure (Except.error e)

protected theorem bind {x : ExceptT ε m α} {f : α → ExceptT ε m β} {r : Except ε α}
    {g : α → Except ε β} (hx : Yields x r) (hf : ∀ a, r = .ok a → Yields (f a) (g a)) :
    Yields (x >>= f) (r >>= g) := by
  cases r with
  | error e => exact Determined.gives_bind hx (Determined.gives_pure (Except.error e))
  | ok a => exact Determined.gives_bind hx (hf a rfl)

theorem bind_ok {x : ExceptT ε m α} {f : α → ExceptT ε m β} {a : α} {r : Except ε β}
    (hx : Yields x (.ok a)) (hf : Yields (f a) r) : Yields (x >>= f) r :=
  Determined.gives_bind hx hf

protected theorem map {x : ExceptT ε m α} {r : Except ε α} (f : α → β) (hx : Yields x r) :
    Yields (f <$> x) (f <$> r) := by
  cases r with
  | error e => exact Determined.gives_bind hx (Determined.gives_pure (Except.error e))
  | ok a => exact Determined.gives_bind hx (Determined.gives_pure (Except.ok (f a)))

protected theorem adapt {x : ExceptT ε m α} {r : Except ε α} (f : ε → δ) (hx : Yields x r) :
    Yields (ExceptT.adapt f x) (r.mapError f) :=
  Determined.gives_map (Except.mapError f) hx

protected theorem within {x : ExceptT Malformed m α} {r : Except Malformed α}
    (context : Malformed → Malformed) (hx : Yields x r) :
    Yields (Malformed.within context x) (Malformed.within context r) := by
  cases r with
  | error e => exact Determined.gives_bind hx (Determined.gives_pure (Except.error (context e)))
  | ok a => exact Determined.gives_bind hx (Determined.gives_pure (Except.ok a))

end Yields

/-! ## Reading with any source of names and types -/

section Parsing

variable {m : Type → Type} [Monad m] [Determined m]

theorem ElementType.yields_parseWith {className : Text → ExceptT Malformed m ClassName}
    (h : ∀ name, Yields (className name) (ClassName.parse name)) (s whole : Text) :
    Yields (parseWith className s whole) (parseWith ClassName.parse s whole) := by
  unfold ElementType.parseWith
  split
  case h_1 b =>
    cases Primitive.ofCode? b with
    | none => exact .throw _
    | some p => exact .pure _
  case h_2 =>
    dsimp only
    split
    case isTrue => exact .throw _
    case isFalse =>
      split
      case isTrue => exact .throw _
      case isFalse => exact (h _).map _

theorem FieldType.yields_parseWith {className : Text → ExceptT Malformed m ClassName}
    (h : ∀ name, Yields (className name) (ClassName.parse name)) (raw : Text) :
    Yields (parseWith className raw) (parse raw) := by
  unfold FieldType.parse FieldType.parseWith
  split
  case isTrue => exact .throw _
  case isFalse => exact (ElementType.yields_parseWith h _ _).map _

namespace Method

variable {type : Text → ExceptT Malformed m FieldType}

theorem yields_parseParams (h : ∀ raw, Yields (type raw) (FieldType.parse raw)) (whole : Text)
    (index : Nat) (s : Text) :
    Yields (parseParams type whole index s) (parseParams FieldType.parse whole index s) := by
  induction hn : s.length using Nat.strongRecOn generalizing s index with
  | ind n ih =>
  subst hn
  match s with
  | [] =>
    rw [parseParams, parseParams]
    exact .throw _
  | b :: s =>
    by_cases hb : b = Ascii.closeParen
    · subst hb
      rw [parseParams_close, parseParams_close]
      exact .pure _
    · cases hsplit : splitParameter whole (b :: s) with
      | error e =>
        rw [parseParams_of_error hb hsplit, parseParams_of_error hb hsplit]
        exact .throw _
      | ok parts =>
        obtain ⟨token, rest⟩ := parts
        rw [parseParams_of_token hb hsplit, parseParams_of_token hb hsplit]
        refine ((h token).within _).bind fun param _ => ?_
        refine (ih _ (length_lt_of_splitParameter hsplit) _ _ rfl).bind fun found _ => ?_
        exact .pure _

theorem yields_parseWith (h : ∀ raw, Yields (type raw) (FieldType.parse raw)) (raw name : Text)
    (static : Bool) : Yields (parseWith type raw name static) (parse raw name static) := by
  unfold Method.parse Method.parseWith
  split
  case isTrue => exact .throw _
  case isFalse =>
    refine (yields_parseParams h _ _ _).bind fun found _ => ?_
    obtain ⟨params, result⟩ := found
    dsimp only
    split
    case isTrue => exact .pure _
    case isFalse => exact ((h result).within _).bind fun found _ => .pure _

end Method

theorem Field.yields_parseWith {type : Text → ExceptT Malformed m FieldType}
    (h : ∀ raw, Yields (type raw) (FieldType.parse raw)) (name raw : Text) :
    Yields (parseWith type name raw) (parse name raw) :=
  ((h raw).within _).bind fun _ _ => .pure _

end Parsing

/-! ## Tables -/

namespace RecentTable

variable {κ υ : Type} [DecidableEq κ] {parse : κ → Except Malformed υ} {t : RecentTable κ υ}
  {key : κ} {value : υ}

/-- Every entry is what reading its key gives. -/
def Sound (parse : κ → Except Malformed υ) (t : RecentTable κ υ) : Prop :=
  ∀ e ∈ t.entries, parse e.1 = .ok e.2

omit [DecidableEq κ] in
theorem sound_empty (capacity : Nat) : Sound parse (empty capacity) := by
  simp [Sound, empty]

theorem Sound.parse_of_find? (h : t.Sound parse) (hfind : t.find? key = some value) :
    parse key = .ok value := by
  obtain ⟨front, back, hentries, -⟩ := List.lookup_eq_some_iff.mp hfind
  exact h (key, value) (by simp [hentries])

theorem Sound.touch (h : t.Sound parse) (key : κ) : (t.touch key).Sound parse := by
  unfold RecentTable.touch
  split
  case h_1 value hfind =>
    intro e he
    rcases List.mem_cons.mp he with rfl | he
    · exact h.parse_of_find? hfind
    · exact h e (List.mem_of_mem_filter he)
  case h_2 => exact h

theorem Sound.insert (h : t.Sound parse) (hparse : parse key = .ok value) :
    (t.insert key value).Sound parse := by
  unfold RecentTable.insert
  split
  case h_1 => exact h
  case h_2 =>
    intro e he
    rcases List.mem_cons.mp (List.mem_of_mem_take he) with rfl | he
    · exact hparse
    · exact h e he

end RecentTable

namespace Interner

/-- All tables hold what reading gives. -/
structure Sound (s : Interner) : Prop where
  types : s.types.Sound FieldType.parse
  classes : s.classes.Sound ClassName.parse
  methods : s.methods.Sound fun r => Method.parse r.raw r.name r.static

theorem sound_ofCapacity (n : Int) : (ofCapacity n).Sound :=
  ⟨RecentTable.sound_empty _, RecentTable.sound_empty _, RecentTable.sound_empty _⟩

instance : Determined (StateM Interner) := .ofInvariant Sound

/-- A machine with tables. Whoever looks at them finds all of them sound, and whoever changes sound
tables into sound ones may do so. -/
class KeepsTables (m : Type → Type) [Monad m] [MonadStateOf Interner m] extends Determined m where
  gives_get {α : Type} {f : Interner → m α} {a : α} :
    (∀ s : Interner, s.Sound → Gives (f s) a) → Gives (getThe Interner >>= f) a
  gives_modify {f : Interner → Interner} :
    (∀ s : Interner, s.Sound → (f s).Sound) → Gives (modifyThe Interner f) ⟨⟩

instance : KeepsTables (StateM Interner) where
  gives_get h s hs := h s hs s hs
  gives_modify h s hs := ⟨_, h s hs, rfl⟩

variable {m : Type → Type} [Monad m] [MonadStateOf Interner m] [KeepsTables m]

theorem yields_modify {ε : Type} {f : Interner → Interner}
    (h : ∀ s : Interner, s.Sound → (f s).Sound) :
    Yields (modifyThe Interner f : ExceptT ε m PUnit) (.ok ⟨⟩) :=
  Determined.gives_map Except.ok (KeepsTables.gives_modify h)

variable [LawfulMonad m]

theorem yields_get {ε α : Type} {f : Interner → ExceptT ε m α} {r : Except ε α}
    (h : ∀ s : Interner, s.Sound → Yields (f s) r) : Yields (getThe Interner >>= f) r := by
  have hrun : (getThe Interner >>= f : ExceptT ε m α).run =
      getThe Interner >>= fun s => (f s).run := by
    change (ExceptT.lift (getThe Interner) >>= f : ExceptT ε m α).run = _
    rw [ExceptT.run_bind_lift]
  rw [Yields, hrun]
  exact KeepsTables.gives_get h

variable {κ υ : Type} [DecidableEq κ] {table : Interner → RecentTable κ υ}
  {update : RecentTable κ υ → Interner → Interner} {parse : κ → Except Malformed υ}

/-- What is remembered is what would be read. -/
theorem yields_remember {key : κ} {read : ExceptT Malformed m υ}
    (htable : ∀ s : Interner, s.Sound → (table s).Sound parse)
    (hupdate : ∀ (s : Interner) (t : RecentTable κ υ), s.Sound → t.Sound parse → (update t s).Sound)
    (hread : Yields read (parse key)) : Yields (remember table update key read) (parse key) := by
  refine yields_get fun s hs => ?_
  cases hfind : (table s).find? key with
  | some value =>
    rw [(htable s hs).parse_of_find? hfind]
    refine (yields_modify fun t ht => ?_).bind_ok (.pure value)
    exact hupdate t _ ht ((htable t ht).touch key)
  | none =>
    dsimp only
    cases hparse : parse key with
    | error e =>
      rw [hparse] at hread
      exact hread.bind (g := fun _ => .error e) nofun
    | ok value =>
      rw [hparse] at hread
      refine hread.bind_ok (yields_get fun t ht => ?_)
      -- An entry that came in while its key was read is what reading the key gives.
      have hsame : ((table t).find? key).getD value = value := by
        cases hknown : (table t).find? key with
        | none => rfl
        | some known =>
          exact Except.ok.inj (((htable t ht).parse_of_find? hknown).symm.trans hparse)
      rw [hsame]
      refine (yields_modify fun u hu => ?_).bind_ok (.pure value)
      exact hupdate u _ hu ((htable u hu).insert hparse)

theorem yields_className (name : Text) :
    Yields (className (m := m) name) (ClassName.parse name) := by
  refine yields_remember (fun s hs => hs.classes) ?_ ?_
  · exact fun s t hs ht => ⟨hs.types, ht, hs.methods⟩
  · exact Determined.gives_pure (ClassName.parse name)

theorem yields_fieldType (raw : Text) :
    Yields (fieldType (m := m) raw) (FieldType.parse raw) := by
  refine yields_remember (fun s hs => hs.types) ?_ (FieldType.yields_parseWith yields_className raw)
  exact fun s t hs ht => ⟨ht, hs.classes, hs.methods⟩

theorem yields_method (raw name : Text) (static : Bool) :
    Yields (method (m := m) raw name static) (Method.parse raw name static) := by
  let parse (r : MethodRequest) : Except Malformed Method := Method.parse r.raw r.name r.static
  have hread : Yields (Method.parseWith (fieldType (m := m)) raw name static)
      (parse ⟨raw, name, static⟩) :=
    Method.yields_parseWith yields_fieldType raw name static
  refine yields_remember (fun s hs => hs.methods) ?_ hread
  exact fun s t hs ht => ⟨hs.types, hs.classes, ht⟩

theorem yields_field (name raw : Text) :
    Yields (field (m := m) name raw) (Field.parse name raw) :=
  Field.yields_parseWith yields_fieldType name raw

end Interner

/-! ## Faithful sources -/

/-- A source that gives what reading afresh gives. -/
class FaithfulSource (m : Type → Type) [Monad m] [DescriptorSource m] extends Determined m where
  yields_className (name : Text) :
    Yields (DescriptorSource.className (m := m) name) (ClassName.parse name)
  yields_fieldType (raw : Text) :
    Yields (DescriptorSource.fieldType (m := m) raw) (FieldType.parse raw)
  yields_method (raw name : Text) (static : Bool) :
    Yields (DescriptorSource.method (m := m) raw name static) (Method.parse raw name static)
  yields_field (name raw : Text) :
    Yields (DescriptorSource.field (m := m) name raw) (Field.parse name raw)

instance : FaithfulSource Id where
  yields_className _ := rfl
  yields_fieldType _ := rfl
  yields_method _ _ _ := rfl
  yields_field _ _ := rfl

instance : FaithfulSource (StateM Interner) where
  yields_className := Interner.yields_className
  yields_fieldType := Interner.yields_fieldType
  yields_method := Interner.yields_method
  yields_field := Interner.yields_field

end JvmLinkage
