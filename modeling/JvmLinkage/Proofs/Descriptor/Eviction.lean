import JvmLinkage.Proofs.Descriptor.Source

/-!
# Tables that forget

Entries may be dropped from the tables whenever the tables are used, between two readings as well as
in the middle of one. Dropping keeps the tables sound, so that tables which forget are a faithful
source as well.
-/

namespace JvmLinkage

/-! ## Dropping entries -/

/-- The keys under which entries are kept when others are dropped. -/
structure Eviction where
  keepsType : Text → Bool
  keepsClass : Text → Bool
  keepsMethod : MethodRequest → Bool

namespace RecentTable

variable {κ υ : Type} {parse : κ → Except Malformed υ} {t : RecentTable κ υ}

/-- The table with the entries under some keys only. -/
def keep (keeps : κ → Bool) (t : RecentTable κ υ) : RecentTable κ υ :=
  { t with entries := t.entries.filter fun e => keeps e.1 }

theorem Sound.keep (h : t.Sound parse) (keeps : κ → Bool) : (t.keep keeps).Sound parse :=
  fun e he => h e (List.mem_of_mem_filter he)

end RecentTable

namespace Interner

/-- The tables after entries are dropped. -/
def evict (e : Eviction) (s : Interner) : Interner :=
  ⟨s.types.keep e.keepsType, s.classes.keep e.keepsClass, s.methods.keep e.keepsMethod⟩

theorem Sound.evict {s : Interner} (h : s.Sound) (e : Eviction) : (s.evict e).Sound :=
  ⟨h.types.keep _, h.classes.keep _, h.methods.keep _⟩

end Interner

/-! ## A machine that forgets -/

/-- Tables, and what is dropped from them the next times that they are used. -/
structure ForgetfulTables where
  tables : Interner
  evictions : List Eviction

namespace ForgetfulTables

/-- The tables as their next use finds them. -/
def forget (s : ForgetfulTables) : ForgetfulTables :=
  match s.evictions with
  | [] => s
  | e :: later => ⟨s.tables.evict e, later⟩

theorem sound_forget {s : ForgetfulTables} (h : s.tables.Sound) : s.forget.tables.Sound := by
  unfold forget
  split
  · exact h
  · exact h.evict _

end ForgetfulTables

/-- Computations on tables that forget. -/
abbrev Forgetting := StateM ForgetfulTables

namespace Forgetting

-- Looking at the tables is a use of them, and so is every change.
instance : MonadStateOf Interner Forgetting where
  get := StateT.modifyGet fun s => (s.forget.tables, s.forget)
  set tables := StateT.modifyGet fun s => (⟨⟩, { s.forget with tables })
  modifyGet f := StateT.modifyGet fun s =>
    let (a, tables) := f s.forget.tables
    (a, { s.forget with tables })

instance : DescriptorSource Forgetting where
  className := Interner.className
  fieldType := Interner.fieldType
  method := Interner.method
  field := Interner.field

instance : Determined Forgetting := .ofInvariant fun s => s.tables.Sound

instance : Interner.KeepsTables Forgetting where
  gives_get h s hs :=
    have hs' := ForgetfulTables.sound_forget hs
    h _ hs' s.forget hs'
  gives_modify h _ hs := ⟨_, h _ (ForgetfulTables.sound_forget hs), rfl⟩

instance : FaithfulSource Forgetting where
  yields_className := Interner.yields_className
  yields_fieldType := Interner.yields_fieldType
  yields_method := Interner.yields_method
  yields_field := Interner.yields_field

end Forgetting

end JvmLinkage
