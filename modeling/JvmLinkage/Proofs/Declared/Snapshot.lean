import JvmLinkage.Declared.Snapshot
import JvmLinkage.Proofs.Descriptor.Source

/-!
# Restoring snapshots

A class whose names, types and signatures were all read from texts is restored from its snapshot,
whatever tables of descriptors are used. Every class that is decoded from a class file is of this
kind.
-/

namespace JvmLinkage

/-! ## What was read from texts -/

theorem Text.endsWith_semicolon_iff {t : Text} :
    t.endsWith ";" = true ↔ t.getLast? = some Ascii.semicolon := by
  have hmark : Text.ofString ";" = [Ascii.semicolon] := by decide
  rw [Text.endsWith, List.isSuffixOf_iff_suffix, hmark]
  constructor
  · rintro ⟨front, rfl⟩
    simp
  · intro h
    obtain ⟨front, rfl⟩ := List.getLast?_eq_some_iff.mp h
    exact ⟨front, rfl⟩

/-- The name was read from a text. -/
def ClassName.Accepted (c : ClassName) : Prop := ∃ name, ClassName.parse name = .ok c

/-- The field was read from texts. -/
def Field.Accepted (f : Field) : Prop := ∃ raw, Field.parse f.name raw = .ok f

/-- The method was read from texts. -/
def Method.Accepted (m : Method) : Prop := ∃ raw, Method.parse raw m.name m.static = .ok m

theorem ClassName.WellFormed.accepted {c : ClassName} (h : c.WellFormed) : c.Accepted := by
  obtain ⟨hne, hslash, hsemicolon, -⟩ := h
  refine ⟨c.dotted, ?_⟩
  rw [parse_of_not_mem hne hsemicolon, Text.replace_of_not_mem _ hslash]

theorem ClassName.Accepted.parse_dotted {c : ClassName} (h : c.Accepted) :
    ClassName.parse c.dotted = .ok c := by
  obtain ⟨name, hname⟩ := h
  obtain ⟨hne, hend, rfl⟩ := parse_eq_ok_iff.mp hname
  refine parse_eq_ok_iff.mpr ⟨by simpa using hne, ?_, ?_⟩
  · -- Only slashes become dots, so the last octet is a semicolon if it was one.
    rw [Bool.eq_false_iff, ne_eq, Text.endsWith_semicolon_iff] at hend ⊢
    intro hlast
    rw [Text.replace, List.getLast?_map, Option.map_eq_some_iff] at hlast
    obtain ⟨b, hb, hmark⟩ := hlast
    split at hmark
    · exact absurd hmark (by decide)
    · exact hend (hmark ▸ hb)
  · have hslash : Ascii.slash ∉ Text.replace Ascii.slash Ascii.dot name := by
      intro hmem
      obtain ⟨b, -, hb⟩ := List.mem_map.mp hmem
      split at hb
      · exact absurd hb (by decide)
      · contradiction
    rw [Text.replace_of_not_mem _ hslash]

theorem FieldType.parse_raw {raw : Text} {t : FieldType} (h : FieldType.parse raw = .ok t) :
    FieldType.parse t.raw = .ok t :=
  (spelled_of_parse h).parse_raw

theorem Field.parse_eq (name raw : Text) :
    Field.parse name raw =
      match FieldType.parse raw with
      | .ok t => .ok ⟨name, t⟩
      | .error e => .error (.field name e) := by
  unfold Field.parse Field.parseWith
  cases FieldType.parse raw with
  | error e => rfl
  | ok t => rfl

theorem Field.accepted_of_parse {name raw : Text} {f : Field} (h : Field.parse name raw = .ok f) :
    f.Accepted := by
  have hname : f.name = name := by
    rw [parse_eq] at h
    split at h
    · exact congrArg Field.name (Except.ok.inj h).symm
    · contradiction
  exact ⟨raw, hname ▸ h⟩

theorem Field.Accepted.parse_raw {f : Field} (h : f.Accepted) :
    Field.parse f.name f.type.raw = .ok f := by
  obtain ⟨raw, hraw⟩ := h
  rw [parse_eq] at hraw ⊢
  split at hraw
  case h_1 t ht =>
    obtain rfl : t = f.type := congrArg Field.type (Except.ok.inj hraw)
    rw [FieldType.parse_raw ht]
  case h_2 => contradiction

theorem Method.accepted_of_parse {raw name : Text} {static : Bool} {m : Method}
    (h : Method.parse raw name static = .ok m) : m.Accepted := by
  obtain ⟨-, rfl, rfl⟩ := spelled_of_parse h
  exact ⟨raw, h⟩

theorem Method.Accepted.parse_raw {m : Method} (h : m.Accepted) :
    Method.parse m.raw m.name m.static = .ok m := by
  obtain ⟨raw, hraw⟩ := h
  exact (spelled_of_parse hraw).1.wellFormed.parse_raw

theorem Method.accepted_classInit : Method.classInit.Accepted := by
  have hwell : Method.classInit.WellFormed := by simp [Method.WellFormed, Method.classInit,
    ReturnType.WellFormed]
  exact ⟨_, hwell.parse_raw⟩

/-! ## Parts of classes -/

/-- All names and signatures of the call were read from texts. -/
structure Call.Accepted (c : Call) : Prop where
  owner : c.owner.Accepted
  method : c.method.Accepted
  caught : ∀ e ∈ c.caught, e.Accepted

/-- All names and types of the access were read from texts. -/
structure Access.Accepted (a : Access) : Prop where
  owner : a.owner.Accepted
  field : a.field.Accepted
  caught : ∀ e ∈ a.caught, e.Accepted

/-- The method and all that its body refers to were read from texts. -/
structure DeclaredMethod.Accepted (d : DeclaredMethod) : Prop where
  method : d.method.Accepted
  calls : ∀ c ∈ d.calls, c.Accepted
  accesses : ∀ a ∈ d.accesses, a.Accepted

/-- All parts were read from texts. -/
structure ClassBuilder.Accepted (b : ClassBuilder) : Prop where
  name : b.name.Accepted
  parents : ∀ c ∈ b.parents, c.Accepted
  loads : ∀ c ∈ b.loads, c.Accepted
  fields : ∀ f ∈ b.fields, f.Accepted
  methods : ∀ d ∈ b.methods, d.Accepted

/-- The class was built from parts that were read from texts. -/
def DeclaredClass.Accepted (c : DeclaredClass) : Prop := ∃ b : ClassBuilder, b.Accepted ∧ b.build = c

namespace ClassBuilder

variable {b : ClassBuilder}

/-- The parts of a class, from which it is built again. -/
def ofClass (c : DeclaredClass) : ClassBuilder :=
  { c with methods_distinct := c.methods_distinct }

theorem build_ofClass (c : DeclaredClass) : (ofClass c).build = c := by
  have hparents := Ascending.ofList_of_ordered c.parents_ordered
  have hloads := Ascending.ofList_of_ordered c.loads_ordered
  have hfields := Ascending.ofList_of_ordered c.fields_ordered
  have hmethods := Ascending.ofList_of_ordered c.methods_ordered
  cases c
  simp_all [ofClass, build]

theorem Accepted.ofClass {c : DeclaredClass} (h : c.Accepted) : (ofClass c).Accepted := by
  obtain ⟨b, hb, rfl⟩ := h
  constructor
  case name => exact hb.name
  case parents => exact fun c hc => hb.parents c (Ascending.mem_of_mem_ofList hc)
  case loads => exact fun c hc => hb.loads c (Ascending.mem_of_mem_ofList hc)
  case fields => exact fun f hf => hb.fields f (Ascending.mem_of_mem_ofList hf)
  case methods => exact fun d hd => hb.methods d (Ascending.mem_of_mem_ofList hd)

theorem eq_of_addMethod? {b b' : ClassBuilder} {d : DeclaredMethod} (h : b.addMethod? d = some b') :
    b'.name = b.name ∧ b'.parents = b.parents ∧ b'.loads = b.loads ∧ b'.fields = b.fields ∧
      b'.methods = b.methods ++ [d] := by
  unfold addMethod? at h
  split at h
  · contradiction
  · cases h
    exact ⟨rfl, rfl, rfl, rfl, rfl⟩

theorem Accepted.addMethod? {b' : ClassBuilder} {d : DeclaredMethod} (hb : b.Accepted)
    (hd : d.Accepted) (h : b.addMethod? d = some b') : b'.Accepted := by
  obtain ⟨hname, hparents, hloads, hfields, hmethods⟩ := eq_of_addMethod? h
  constructor
  case name => exact hname ▸ hb.name
  case parents => exact hparents ▸ hb.parents
  case loads => exact hloads ▸ hb.loads
  case fields => exact hfields ▸ hb.fields
  case methods =>
    intro e he
    rw [hmethods, List.mem_append, List.mem_singleton] at he
    rcases he with he | rfl
    · exact hb.methods e he
    · exact hd

/-- A method with an identity of its own is added after those that are there. -/
theorem addMethod?_of_distinct {d : DeclaredMethod}
    (h : (b.methods ++ [d]).Pairwise DeclaredMethod.Distinct) :
    b.addMethod? d = some { b with methods := b.methods ++ [d], methods_distinct := h } := by
  have hnew : ¬ (b.methods.any fun e => e.method.key = d.method.key) = true := by
    intro hany
    obtain ⟨e, he, heq⟩ := List.any_eq_true.mp hany
    exact (List.pairwise_append.mp h).2.2 e he d (by simp) (of_decide_eq_true heq)
  exact dif_neg hnew

end ClassBuilder

/-! ## Restoring what was read from texts -/

namespace Yields

variable {m : Type → Type} [Monad m] [Determined m] {ε α β : Type}

theorem mapM_of_forall₂ {read : β → ExceptT ε m α} {items : List β} {values : List α}
    (h : List.Forall₂ (fun item value => Yields (read item) (.ok value)) items values) :
    Yields (items.mapM read) (.ok values) := by
  have key : ∀ done : List α,
      Yields (List.mapM.loop read items done) (.ok (done.reverse ++ values)) := by
    induction h with
    | nil =>
      intro done
      rw [List.append_nil]
      exact .pure done.reverse
    | cons hitem _ ih =>
      intro done
      refine hitem.bind_ok ?_
      simpa using ih (_ :: done)
  exact key []

theorem mapM_map {write : α → β} {read : β → ExceptT ε m α} {items : List α}
    (h : ∀ a ∈ items, Yields (read (write a)) (.ok a)) :
    Yields ((items.map write).mapM read) (.ok items) := by
  refine mapM_of_forall₂ ?_
  rw [List.forall₂_map_left_iff, List.forall₂_same]
  exact h

theorem mapM_ok {read : β → ExceptT ε m α} {valueOf : β → α} {items : List β}
    (h : ∀ b ∈ items, Yields (read b) (.ok (valueOf b))) :
    Yields (items.mapM read) (.ok (items.map valueOf)) := by
  refine mapM_of_forall₂ ?_
  rw [List.forall₂_map_right_iff, List.forall₂_same]
  exact h

theorem descriptor {places : List Place} {read : ExceptT Malformed m α} {r : Except Malformed α}
    (h : Yields read r) :
    Yields (Decoder.descriptor places read) (r.mapError fun e => ⟨places, .descriptor e⟩) := by
  refine Determined.gives_bind h ?_
  cases r with
  | ok a => exact Determined.gives_pure _
  | error e => exact Determined.gives_pure _

theorem descriptor_ok {places : List Place} {read : ExceptT Malformed m α} {a : α}
    (h : Yields read (.ok a)) : Yields (Decoder.descriptor places read) (.ok a) :=
  h.descriptor

end Yields

section Restoring

variable {m : Type → Type} [Monad m] [DescriptorSource m] [FaithfulSource m]

theorem ClassName.Accepted.yields {c : ClassName} (h : c.Accepted) :
    Yields (DescriptorSource.className (m := m) c.dotted) (.ok c) :=
  h.parse_dotted ▸ FaithfulSource.yields_className c.dotted

theorem Field.Accepted.yields {f : Field} (h : f.Accepted) :
    Yields (DescriptorSource.field (m := m) f.name f.type.raw) (.ok f) :=
  h.parse_raw ▸ FaithfulSource.yields_field f.name f.type.raw

theorem Method.Accepted.yields {s : Method} (h : s.Accepted) :
    Yields (DescriptorSource.method (m := m) s.raw s.name s.static) (.ok s) :=
  h.parse_raw ▸ FaithfulSource.yields_method s.raw s.name s.static

theorem yields_restoreNames {names : List ClassName} (h : ∀ c ∈ names, c.Accepted) :
    Yields (restoreNames (m := m) (names.map ClassName.dotted)) (.ok names) :=
  Yields.mapM_map fun c hc => (h c hc).yields.descriptor_ok

theorem Call.Accepted.restore {c : Call} (h : c.Accepted) :
    Yields ((CallSnapshot.ofCall c).restore (m := m)) (.ok c) := by
  refine h.owner.yields.descriptor_ok.bind_ok ?_
  refine h.method.yields.descriptor_ok.bind_ok ?_
  exact (yields_restoreNames h.caught).bind_ok (.pure c)

theorem Access.Accepted.restore {a : Access} (h : a.Accepted) :
    Yields ((AccessSnapshot.ofAccess a).restore (m := m)) (.ok a) := by
  refine h.owner.yields.descriptor_ok.bind_ok ?_
  refine h.field.yields.descriptor_ok.bind_ok ?_
  exact (yields_restoreNames h.caught).bind_ok (.pure a)

theorem DeclaredMethod.Accepted.restore {d : DeclaredMethod} (h : d.Accepted) :
    Yields ((MethodSnapshot.ofMethod d).restore (m := m)) (.ok d) := by
  refine h.method.yields.descriptor_ok.bind_ok ?_
  refine (Yields.mapM_map fun c hc => (h.calls c hc).restore).bind_ok ?_
  exact (Yields.mapM_map fun a ha => (h.accesses a ha).restore).bind_ok (.pure d)

/-- Restored methods with different identities are all added, in order. -/
theorem yields_addMethods {methods : List DeclaredMethod} {b : ClassBuilder}
    (haccepted : ∀ d ∈ methods, d.Accepted)
    (hdistinct : (b.methods ++ methods).Pairwise DeclaredMethod.Distinct) :
    Yields ((methods.map MethodSnapshot.ofMethod).foldlM (MethodSnapshot.addTo (m := m)) b)
      (.ok { b with methods := b.methods ++ methods, methods_distinct := hdistinct }) := by
  induction methods generalizing b with
  | nil =>
    simp only [List.append_nil]
    exact .pure b
  | cons d methods ih =>
    have hall : ((b.methods ++ [d]) ++ methods).Pairwise DeclaredMethod.Distinct := by
      simpa using hdistinct
    have hnext := (List.pairwise_append.mp hall).1
    let next : ClassBuilder := { b with methods := b.methods ++ [d], methods_distinct := hnext }
    have hadd : Yields (MethodSnapshot.addTo (m := m) b (.ofMethod d)) (.ok next) := by
      refine (haccepted d (by simp)).restore.bind_ok ?_
      rw [ClassBuilder.addMethod?_of_distinct hnext]
      exact .pure next
    have htail := ih (b := next) (fun e he => haccepted e (by simp [he])) hall
    simp only [next, List.append_assoc, List.singleton_append] at htail
    exact hadd.bind_ok htail

/-- A class that was built from what was read is restored from its snapshot by every source that is
faithful. -/
theorem DeclaredClass.Accepted.restore {c : DeclaredClass} (h : c.Accepted) :
    Yields ((ClassSnapshot.ofClass c).restore (m := m)) (.ok c) := by
  have hparts := ClassBuilder.Accepted.ofClass h
  refine hparts.name.yields.descriptor_ok.bind_ok ?_
  refine (yields_restoreNames hparts.parents).bind_ok ?_
  refine (yields_restoreNames hparts.loads).bind_ok ?_
  refine Yields.bind_ok (a := c.fields) ?_ ?_
  · exact Yields.mapM_map fun f hf => (hparts.fields f hf).yields.descriptor_ok
  · let front : ClassBuilder :=
      (((ClassBuilder.start c.name).addParents c.parents).addLoads c.loads).addFields c.fields
    have hmethods := yields_addMethods (m := m) (b := front) hparts.methods c.methods_distinct
    have hbuild : Yields (pure (ClassBuilder.ofClass c).build : ExceptT Fault m _) (.ok c) := by
      rw [ClassBuilder.build_ofClass]
      exact .pure c
    exact hmethods.bind_ok hbuild

end Restoring

end JvmLinkage
