import JvmLinkage.Proofs.Declared.Identity
import JvmLinkage.Proofs.Report.Buckets
import Mathlib.Data.List.Destutter
import Mathlib.Data.List.Induction

/-!
# Building classes

A class is built by steps that add names, fields and methods. It shows what was added and nothing of
the steps: its lists are ascending, and they are what any sorting of the parts gives.
-/

namespace JvmLinkage

/-! ## Ascending lists of the same items -/

namespace Ascending

variable {α : Type} {cmp : α → α → Ordering} [Std.TransCmp cmp] {xs ys : List α}

/-- An ascending list is determined by its items, however they came to be sorted. -/
theorem Ordered.eq_of_sorts {zs : List α} (hzs : Ordered cmp zs) (hxs : xs.Nodup)
    (hmem : ∀ x, x ∈ xs ↔ x ∈ zs) (hsorts : Sorts cmp xs ys) : ys = zs := by
  have hperm : zs.Perm xs := (List.perm_ext_iff_of_nodup hzs.nodup hxs).mpr fun x => (hmem x).symm
  exact (sorts_iff_eq hzs hperm).mp hsorts

theorem Ordered.eq_of_mem_iff (hxs : Ordered cmp xs) (hys : Ordered cmp ys)
    (hmem : ∀ x, x ∈ xs ↔ x ∈ ys) : xs = ys :=
  hys.eq_of_sorts hxs.nodup hmem ⟨.refl xs, hxs.imp fun hlt => by simp [hlt]⟩

/-! ### Repetitions next to each other -/

variable [DecidableEq α] {x y : α}

theorem mem_destutter'_iff : y ∈ xs.destutter' (· ≠ ·) x ↔ y = x ∨ y ∈ xs := by
  induction xs generalizing x with
  | nil => simp
  | cons z xs ih =>
    rw [List.destutter'_cons, List.mem_cons]
    split
    case isTrue => rw [List.mem_cons, ih]
    case isFalse hsame =>
      obtain rfl : x = z := Decidable.not_not.mp hsame
      rw [ih, ← or_assoc, or_self]

theorem ordered_destutter' [Std.LawfulEqCmp cmp] (h : (x :: xs).Pairwise (cmp · · ≠ .gt)) :
    Ordered cmp (xs.destutter' (· ≠ ·) x) := by
  induction xs generalizing x with
  | nil => exact List.pairwise_singleton ..
  | cons z xs ih =>
    obtain ⟨hx, hxs⟩ := List.pairwise_cons.mp h
    rw [List.destutter'_cons]
    split
    case isTrue hne =>
      have hlt : cmp x z = .lt := by
        cases hcmp : cmp x z with
        | lt => rfl
        | eq => exact absurd (Std.LawfulEqCmp.eq_of_compare hcmp) hne
        | gt => exact absurd hcmp (hx z List.mem_cons_self)
      refine List.pairwise_cons.mpr ⟨fun y hy => ?_, ih hxs⟩
      obtain rfl | hy := mem_destutter'_iff.mp hy
      · exact hlt
      · refine Std.TransCmp.lt_of_lt_of_isLE hlt ?_
        rw [Ordering.isLE_iff_ne_gt]
        exact (List.pairwise_cons.mp hxs).1 y hy
    case isFalse hsame =>
      obtain rfl : x = z := Decidable.not_not.mp hsame
      exact ih hxs

/-- Sorting a list in any way and leaving out repetitions gives its items in order. -/
theorem destutter_of_sorts [Std.LawfulEqCmp cmp] (h : Sorts cmp xs ys) :
    ys.destutter (· ≠ ·) = ofList cmp xs := by
  have hmem (y : α) : y ∈ ys ↔ y ∈ ofList cmp xs := by
    rw [mem_ofList_iff fun _ _ _ _ => Std.LawfulEqCmp.eq_of_compare, h.perm.mem_iff]
  have hordered := ordered_ofList cmp xs
  obtain ⟨-, hascending⟩ := h
  cases ys with
  | nil =>
    have hnone : ofList cmp xs = [] := List.eq_nil_iff_forall_not_mem.mpr fun y hy =>
      absurd ((hmem y).mpr hy) List.not_mem_nil
    rw [hnone, List.destutter_nil]
  | cons x ys =>
    refine (ordered_destutter' hascending).eq_of_mem_iff hordered fun y => ?_
    rw [mem_destutter'_iff, ← List.mem_cons, hmem]

end Ascending

/-! ## Members that compare equal -/

theorem Field.Accepted.eq_of_cmp_eq {f g : Field} (hf : f.Accepted)
    (hg : g.Accepted) (h : Field.cmp f g = .eq) : f = g := by
  obtain ⟨hname, htype⟩ := Ordering.then_eq_eq.mp h
  have hname : f.name = g.name := Std.LawfulEqOrd.eq_of_compare hname
  have hraw : f.type.raw = g.type.raw := Std.LawfulEqOrd.eq_of_compare htype
  have hread := hf.parse_raw
  rw [hname, hraw, hg.parse_raw] at hread
  exact (Except.ok.inj hread).symm

theorem DeclaredMethod.eq_of_cmp_eq {ds : List DeclaredMethod} (h : ds.Pairwise Distinct)
    {d e : DeclaredMethod} (hd : d ∈ ds) (he : e ∈ ds) (heq : cmp d e = .eq) : d = e := by
  obtain ⟨hname, hraw⟩ := Ordering.then_eq_eq.mp heq
  have hname : d.method.name = e.method.name := Std.LawfulEqOrd.eq_of_compare hname
  have hraw : d.method.raw = e.method.raw := Std.LawfulEqOrd.eq_of_compare hraw
  refine Decidable.byContradiction fun hne => ?_
  exact distinct_of_ne h hd he hne (by rw [Method.key, Method.key, hname, hraw])

/-! ## Steps -/

/-- A step in building a class. -/
inductive BuildStep where
  | parents (names : List ClassName)
  | loads (names : List ClassName)
  | fields (fields : List Field)
  | method (d : DeclaredMethod)

namespace BuildStep

/-- The parents that a step gives. -/
def givenParents : BuildStep → List ClassName
  | parents names => names
  | _ => []

/-- The loaded classes that a step gives. -/
def givenLoads : BuildStep → List ClassName
  | loads names => names
  | _ => []

/-- The fields that a step gives. -/
def givenFields : BuildStep → List Field
  | fields fs => fs
  | _ => []

/-- The method that a step gives. -/
def givenMethods : BuildStep → List DeclaredMethod
  | method d => [d]
  | _ => []

end BuildStep

/-- The first method with the identity of `d`. -/
def DeclaredMethod.firstOf (methods : List DeclaredMethod) (d : DeclaredMethod) :
    Option DeclaredMethod :=
  methods.find? (·.method.key = d.method.key)

namespace DeclaredMethod

variable {methods : List DeclaredMethod} {d e : DeclaredMethod}

theorem firstOf_congr (h : d.method.key = e.method.key) :
    firstOf methods d = firstOf methods e := by
  rw [firstOf, firstOf, h]

theorem mem_of_firstOf (h : firstOf methods d = some e) :
    e ∈ methods ∧ e.method.key = d.method.key :=
  ⟨List.mem_of_find?_eq_some h, by simpa using List.find?_some h⟩

theorem firstOf_eq_none_iff :
    firstOf methods d = none ↔ ∀ e ∈ methods, e.method.key ≠ d.method.key := by
  simp [firstOf]

theorem firstOf_append_singleton :
    firstOf (methods ++ [e]) d =
      (firstOf methods d).or (if e.method.key = d.method.key then some e else none) := by
  rw [firstOf, List.find?_append, firstOf]
  by_cases h : e.method.key = d.method.key <;> simp [h]

theorem firstOf_of_distinct (h : methods.Pairwise Distinct) :
    firstOf methods d = some d ↔ d ∈ methods := by
  refine ⟨fun hfirst => (mem_of_firstOf hfirst).1, fun hd => ?_⟩
  cases hfirst : firstOf methods d with
  | none => exact absurd rfl (firstOf_eq_none_iff.mp hfirst d hd)
  | some e =>
    obtain ⟨he, hkey⟩ := mem_of_firstOf hfirst
    refine congrArg some (Decidable.byContradiction fun hne => ?_)
    exact distinct_of_ne h he hd hne hkey

/-- The second list has the first method with each identity in the first one. -/
def Firsts (given methods : List DeclaredMethod) : Prop :=
  ∀ d, d ∈ methods ↔ firstOf given d = some d

theorem Firsts.exists_iff {given : List DeclaredMethod} (h : Firsts given methods)
    (d : DeclaredMethod) : (∃ e ∈ methods, e.method.key = d.method.key) ↔
      ∃ e ∈ given, e.method.key = d.method.key := by
  constructor
  · rintro ⟨e, he, hkey⟩
    exact ⟨e, (mem_of_firstOf ((h e).mp he)).1, hkey⟩
  · rintro ⟨e, he, hkey⟩
    cases hfirst : firstOf given d with
    | none => exact absurd hkey (firstOf_eq_none_iff.mp hfirst e he)
    | some first =>
      have hsame := (mem_of_firstOf hfirst).2
      exact ⟨first, (h first).mpr ((firstOf_congr hsame).trans hfirst), hsame⟩

/-- A method with an identity that was given before adds nothing. -/
theorem Firsts.append_known {given : List DeclaredMethod} (h : Firsts given methods)
    (hknown : ∃ e ∈ methods, e.method.key = d.method.key) : Firsts (given ++ [d]) methods := by
  intro e
  rw [h e, firstOf_append_singleton]
  cases hfirst : firstOf given e with
  | some first => simp
  | none =>
    obtain ⟨known, hmem, hkey⟩ := (h.exists_iff d).mp hknown
    have hother : d.method.key ≠ e.method.key := fun heq =>
      firstOf_eq_none_iff.mp hfirst known hmem (hkey.trans heq)
    simp [hother]

/-- A method with an identity of its own is added. -/
theorem Firsts.append_new {given : List DeclaredMethod} (h : Firsts given methods)
    (hnew : ¬∃ e ∈ methods, e.method.key = d.method.key) :
    Firsts (given ++ [d]) (methods ++ [d]) := by
  intro e
  rw [List.mem_append, List.mem_singleton, h e, firstOf_append_singleton]
  -- Only the identity of the new method can be found in it, and no method before has that one.
  cases hfirst : firstOf given e with
  | none =>
    by_cases hkey : d.method.key = e.method.key
    · simp [hkey, eq_comm]
    · have hne : e ≠ d := fun heq => hkey (heq ▸ rfl)
      simp [hkey, hne]
  | some first =>
    obtain ⟨hmem, hkey⟩ := mem_of_firstOf hfirst
    have hne : e ≠ d := fun heq => hnew ((h.exists_iff d).mpr ⟨first, hmem, heq ▸ hkey⟩)
    simp [hne]

end DeclaredMethod

namespace ClassBuilder

/-- Takes a step. A method that is refused changes nothing. -/
def take (b : ClassBuilder) : BuildStep → ClassBuilder
  | .parents names => b.addParents names
  | .loads names => b.addLoads names
  | .fields fields => b.addFields fields
  | .method d => (b.addMethod? d).getD b

/-- The parts after some steps. -/
def ofSteps (name : ClassName) (steps : List BuildStep) : ClassBuilder :=
  steps.foldl take (start name)

/-- The parts are those that steps give: all names and fields, and the first method with each
identity. -/
structure Holds (b : ClassBuilder) (name : ClassName) (steps : List BuildStep) : Prop where
  name : b.name = name
  parents : b.parents = steps.flatMap (·.givenParents)
  loads : b.loads = steps.flatMap (·.givenLoads)
  fields : b.fields = steps.flatMap (·.givenFields)
  methods : DeclaredMethod.Firsts (steps.flatMap (·.givenMethods)) b.methods

variable {b : ClassBuilder} {name : ClassName} {steps : List BuildStep}

theorem holds_start (name : ClassName) : (start name).Holds name [] :=
  ⟨rfl, rfl, rfl, rfl, fun d => by simp [start, DeclaredMethod.firstOf]⟩

theorem take_parts (b : ClassBuilder) (step : BuildStep) :
    (b.take step).name = b.name ∧ (b.take step).parents = b.parents ++ step.givenParents ∧
      (b.take step).loads = b.loads ++ step.givenLoads ∧
      (b.take step).fields = b.fields ++ step.givenFields := by
  cases step with
  | parents names => exact ⟨rfl, rfl, (List.append_nil _).symm, (List.append_nil _).symm⟩
  | loads names => exact ⟨rfl, (List.append_nil _).symm, rfl, (List.append_nil _).symm⟩
  | fields fields => exact ⟨rfl, (List.append_nil _).symm, (List.append_nil _).symm, rfl⟩
  | method d =>
    simp only [take, BuildStep.givenParents, BuildStep.givenLoads, BuildStep.givenFields,
      List.append_nil]
    cases hadd : b.addMethod? d with
    | none => exact ⟨rfl, rfl, rfl, rfl⟩
    | some b' =>
      obtain ⟨hname, hparents, hloads, hfields, -⟩ := eq_of_addMethod? hadd
      exact ⟨hname, hparents, hloads, hfields⟩

theorem firsts_take {given : List DeclaredMethod} (h : DeclaredMethod.Firsts given b.methods)
    (step : BuildStep) :
    DeclaredMethod.Firsts (given ++ step.givenMethods) (b.take step).methods := by
  cases step with
  | method d =>
    rw [take, BuildStep.givenMethods]
    cases hadd : b.addMethod? d with
    | none => exact h.append_known (addMethod?_eq_none_iff.mp hadd)
    | some b' =>
      obtain ⟨-, -, -, -, hmethods⟩ := eq_of_addMethod? hadd
      rw [Option.getD_some, hmethods]
      refine h.append_new fun hknown => ?_
      rw [addMethod?_eq_none_iff.mpr hknown] at hadd
      cases hadd
  | _ => exact (List.append_nil given).symm ▸ h

/-- Every step adds what it gives to the parts. -/
theorem Holds.take (h : b.Holds name steps) (step : BuildStep) :
    (b.take step).Holds name (steps ++ [step]) := by
  obtain ⟨hname, hparents, hloads, hfields⟩ := take_parts b step
  constructor
  case name => rw [hname, h.name]
  case parents => rw [hparents, h.parents, List.flatMap_append, List.flatMap_singleton]
  case loads => rw [hloads, h.loads, List.flatMap_append, List.flatMap_singleton]
  case fields => rw [hfields, h.fields, List.flatMap_append, List.flatMap_singleton]
  case methods =>
    rw [List.flatMap_append, List.flatMap_singleton]
    exact firsts_take h.methods step

theorem holds_ofSteps (name : ClassName) (steps : List BuildStep) :
    (ofSteps name steps).Holds name steps := by
  induction steps using List.reverseRecOn with
  | nil => exact holds_start name
  | append_singleton steps step ih =>
    -- What the steps before have given is kept, and the last one is taken after them.
    rw [ofSteps, List.foldl_append]
    exact ih.take step

/-- A method is refused exactly if one with its identity was added before. -/
theorem addMethod?_ofSteps_eq_none_iff (d : DeclaredMethod) :
    (ofSteps name steps).addMethod? d = none ↔
      ∃ e ∈ steps.flatMap (·.givenMethods), e.method.key = d.method.key :=
  addMethod?_eq_none_iff.trans ((holds_ofSteps name steps).methods.exists_iff d)

/-- The steps go on after a refused method as if it had not been there. -/
theorem ofSteps_of_refused {d : DeclaredMethod} (h : (ofSteps name steps).addMethod? d = none)
    (more : List BuildStep) :
    ofSteps name (steps ++ .method d :: more) = ofSteps name (steps ++ more) := by
  have hsame : (ofSteps name steps).take (.method d) = ofSteps name steps := by
    rw [take, h, Option.getD_none]
  rw [ofSteps, ofSteps, List.foldl_append, List.foldl_append, List.foldl_cons]
  exact congrArg (more.foldl take) hsame

/-! ## Classes -/

/-- The class has the parts that steps give, each list in its order. Any way to sort them gives
these lists: names as they were given, with repetitions left out, and members in whatever order
they come. -/
structure Shows (c : DeclaredClass) (name : ClassName) (steps : List BuildStep) : Prop where
  name : c.name = name
  parents_ordered : Ascending.Ordered compare c.parents
  mem_parents : ∀ p, p ∈ c.parents ↔ p ∈ steps.flatMap (·.givenParents)
  loads_ordered : Ascending.Ordered compare c.loads
  mem_loads : ∀ l, l ∈ c.loads ↔ l ∈ steps.flatMap (·.givenLoads)
  fields_ordered : Ascending.Ordered Field.cmp c.fields
  mem_fields : ∀ f, f ∈ c.fields ↔ f ∈ steps.flatMap (·.givenFields)
  methods_ordered : Ascending.Ordered DeclaredMethod.cmp c.methods
  methods : DeclaredMethod.Firsts (steps.flatMap (·.givenMethods)) c.methods
  parents_sorted : ∀ sorted, Sorts compare (steps.flatMap (·.givenParents)) sorted →
    sorted.destutter (· ≠ ·) = c.parents
  loads_sorted : ∀ sorted, Sorts compare (steps.flatMap (·.givenLoads)) sorted →
    sorted.destutter (· ≠ ·) = c.loads
  fields_sorted : ∀ entries sorted : List Field, entries.Nodup →
    (∀ f, f ∈ entries ↔ f ∈ steps.flatMap (·.givenFields)) → Sorts Field.cmp entries sorted →
      sorted = c.fields
  methods_sorted : ∀ entries sorted : List DeclaredMethod, entries.Nodup →
    DeclaredMethod.Firsts (steps.flatMap (·.givenMethods)) entries →
      Sorts DeclaredMethod.cmp entries sorted → sorted = c.methods

theorem shows_build (hfields : ∀ f ∈ steps.flatMap (·.givenFields), f.Accepted) :
    Shows (ofSteps name steps).build name steps := by
  have h := holds_ofSteps name steps
  have hnames (given : List ClassName) (p : ClassName) :
      p ∈ Ascending.ofList compare given ↔ p ∈ given := Ascending.mem_ofList_compare_iff
  have hfield (f : Field) : f ∈ (ofSteps name steps).build.fields ↔
      f ∈ steps.flatMap (·.givenFields) := by
    rw [← h.fields] at hfields ⊢
    exact Ascending.mem_ofList_iff fun f hf g hg => (hfields f hf).eq_of_cmp_eq (hfields g hg)
  have hmethod (d : DeclaredMethod) : d ∈ (ofSteps name steps).build.methods ↔
      d ∈ (ofSteps name steps).methods :=
    Ascending.mem_ofList_iff fun _ hd _ he =>
      DeclaredMethod.eq_of_cmp_eq (ofSteps name steps).methods_distinct hd he
  constructor
  case name => exact h.name
  case parents_ordered => exact (ofSteps name steps).build.parents_ordered
  case mem_parents => exact h.parents ▸ hnames _
  case loads_ordered => exact (ofSteps name steps).build.loads_ordered
  case mem_loads => exact h.loads ▸ hnames _
  case fields_ordered => exact (ofSteps name steps).build.fields_ordered
  case mem_fields => exact hfield
  case methods_ordered => exact (ofSteps name steps).build.methods_ordered
  case methods => exact fun d => (hmethod d).trans (h.methods d)
  case parents_sorted => exact fun _ hsorts => Ascending.destutter_of_sorts (h.parents ▸ hsorts)
  case loads_sorted => exact fun _ hsorts => Ascending.destutter_of_sorts (h.loads ▸ hsorts)
  case fields_sorted =>
    intro entries sorted hnodup hentries hsorts
    exact (build _).fields_ordered.eq_of_sorts hnodup
      (fun f => (hentries f).trans (hfield f).symm) hsorts
  case methods_sorted =>
    intro entries sorted hnodup hentries hsorts
    exact (build _).methods_ordered.eq_of_sorts hnodup
      (fun d => (hentries d).trans ((hmethod d).trans (h.methods d)).symm) hsorts

end ClassBuilder

/-- Steps give the same names and fields, each at least once, and the same methods in another order,
no two with one identity. -/
structure BuildStep.SameParts (steps steps' : List BuildStep) : Prop where
  parents : ∀ p, p ∈ steps.flatMap (·.givenParents) ↔ p ∈ steps'.flatMap (·.givenParents)
  loads : ∀ l, l ∈ steps.flatMap (·.givenLoads) ↔ l ∈ steps'.flatMap (·.givenLoads)
  fields : ∀ f, f ∈ steps.flatMap (·.givenFields) ↔ f ∈ steps'.flatMap (·.givenFields)
  methods : (steps.flatMap (·.givenMethods)).Perm (steps'.flatMap (·.givenMethods))
  distinct : (steps.flatMap (·.givenMethods)).Pairwise DeclaredMethod.Distinct

/-- Classes with the same parts are the same. -/
theorem DeclaredClass.eq_of_mem_iff {c c' : DeclaredClass} (hname : c.name = c'.name)
    (hparents : ∀ p, p ∈ c.parents ↔ p ∈ c'.parents) (hloads : ∀ l, l ∈ c.loads ↔ l ∈ c'.loads)
    (hfields : ∀ f, f ∈ c.fields ↔ f ∈ c'.fields)
    (hmethods : ∀ d, d ∈ c.methods ↔ d ∈ c'.methods) : c = c' := by
  have hparents := c.parents_ordered.eq_of_mem_iff c'.parents_ordered hparents
  have hloads := c.loads_ordered.eq_of_mem_iff c'.loads_ordered hloads
  have hfields := c.fields_ordered.eq_of_mem_iff c'.fields_ordered hfields
  have hmethods := c.methods_ordered.eq_of_mem_iff c'.methods_ordered hmethods
  cases c
  cases c'
  simp_all

theorem DeclaredMethod.Firsts.mem_iff_of_distinct {given methods : List DeclaredMethod}
    (h : Firsts given methods) (hdistinct : given.Pairwise Distinct) (d : DeclaredMethod) :
    d ∈ methods ↔ d ∈ given :=
  (h d).trans (firstOf_of_distinct hdistinct)

/-- Steps that give the same parts build the same class. -/
theorem ClassBuilder.build_eq_of_sameParts {name : ClassName} {steps steps' : List BuildStep}
    (hfields : ∀ f ∈ steps.flatMap (·.givenFields), f.Accepted)
    (h : BuildStep.SameParts steps steps') :
    (ofSteps name steps').build = (ofSteps name steps).build := by
  have hfields' : ∀ f ∈ steps'.flatMap (·.givenFields), f.Accepted := fun f hf =>
    hfields f ((h.fields f).mpr hf)
  have hshows : Shows (ofSteps name steps).build name steps := shows_build hfields
  have hshows' : Shows (ofSteps name steps').build name steps' := shows_build hfields'
  have hdistinct' := (h.methods.pairwise_iff fun hne => Ne.symm hne).mp h.distinct
  apply DeclaredClass.eq_of_mem_iff
  case hname => rw [hshows'.name, hshows.name]
  case hparents => exact fun p => by rw [hshows'.mem_parents, hshows.mem_parents, h.parents]
  case hloads => exact fun l => by rw [hshows'.mem_loads, hshows.mem_loads, h.loads]
  case hfields => exact fun f => by rw [hshows'.mem_fields, hshows.mem_fields, h.fields]
  case hmethods =>
    intro d
    rw [hshows'.methods.mem_iff_of_distinct hdistinct',
      hshows.methods.mem_iff_of_distinct h.distinct]
    exact h.methods.mem_iff.symm

end JvmLinkage
