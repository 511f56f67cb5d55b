import JvmLinkage.Linkage.Reachability
import Mathlib.Data.List.Chain
import Mathlib.Data.List.Perm.Subperm

/-!
# The search for reachable classes as a run

Names refer to names through the declarations that the search follows. Everything that ever enters
the queue, were nothing left out, is the agenda of the classes reached so far: the seeds, then the
references of each reached class in turn. A run handles a growing part of the agenda from its front
and reaches each class at its first mention. What holds of reached classes is proved along runs.
-/

namespace JvmLinkage

/-! ## References between names -/

/-- A declaration refers to a name. -/
inductive DeclaredClass.Refers (c : DeclaredClass) : Reference → ClassName → Prop where
  | parent {name : ClassName} : name ∈ c.parents → Refers c .parent name
  | load {name : ClassName} : name ∈ c.loads → Refers c .load name
  | call {m : DeclaredMethod} {call : Call} :
      m ∈ c.methods → call ∈ m.calls → Refers c .call call.owner
  | field {m : DeclaredMethod} {access : Access} :
      m ∈ c.methods → access ∈ m.accesses → Refers c .field access.owner

theorem DeclaredClass.mem_references {c : DeclaredClass} {name : ClassName} {kind : Reference} :
    (name, kind) ∈ c.references ↔ c.Refers kind name := by
  constructor
  · intro h
    simp only [references, List.mem_append, List.mem_map, List.mem_flatMap, Prod.mk.injEq] at h
    rcases h with (⟨_, hp, rfl, rfl⟩ | ⟨_, hl, rfl, rfl⟩) | ⟨m, hm, h | h⟩
    · exact .parent hp
    · exact .load hl
    · obtain ⟨call, hcall, rfl, rfl⟩ := h
      exact .call hm hcall
    · obtain ⟨access, haccess, rfl, rfl⟩ := h
      exact .field hm haccess
  · intro h
    simp only [references, List.mem_append, List.mem_map, List.mem_flatMap, Prod.mk.injEq]
    cases h with
    | parent hp => exact .inl (.inl ⟨name, hp, rfl, rfl⟩)
    | load hl => exact .inl (.inr ⟨name, hl, rfl, rfl⟩)
    | call hm hcall => exact .inr ⟨_, hm, .inl ⟨_, hcall, rfl, rfl⟩⟩
    | field hm haccess => exact .inr ⟨_, hm, .inr ⟨_, haccess, rfl, rfl⟩⟩

theorem World.name_of_find? {w : World} {name : ClassName} {c : DeclaredClass}
    (h : w.find? name = some c) : c.name = name := by
  obtain ⟨s, hs, rfl⟩ := Option.map_eq_some_iff.mp h
  exact w.name_of_supply name s hs

namespace Reachability

variable (seeds : List DeclaredClass) (world : World)

/-- The declaration that a name is followed with: that of the first seed of the name, or else what
the world supplies. -/
def declaration? (name : ClassName) : Option DeclaredClass :=
  (seeds.find? fun c => c.name = name).or (world.find? name)

/-- A name that is that of a seed or is supplied. -/
def Known (name : ClassName) : Prop := (∃ c ∈ seeds, c.name = name) ∨ (world.find? name).isSome

/-- The declaration followed for a name refers to another name. -/
def RefersTo (kind : Reference) (source target : ClassName) : Prop :=
  ∃ c, declaration? seeds world source = some c ∧ c.Refers kind target

/-- A chain of names from that of a seed to a name, each of which is referred to by the declaration
followed for the one before and is itself known. -/
structure IsChain (chain : List ClassName) (name : ClassName) : Prop where
  starts : ∃ c ∈ seeds, chain.head? = some c.name
  linked : chain.IsChain fun a b => (∃ kind, RefersTo seeds world kind a b) ∧ Known seeds world b
  ends : chain.getLast? = some name

variable {seeds world}

theorem name_of_declaration? {name : ClassName} {c : DeclaredClass}
    (h : declaration? seeds world name = some c) : c.name = name := by
  rcases Option.or_eq_some_iff.mp h with hseed | ⟨-, hworld⟩
  · simpa using List.find?_some hseed
  · exact World.name_of_find? hworld

end Reachability

/-! ## Sets of reached classes -/

namespace ReachableSet

@[simp] theorem contains_empty (name : ClassName) : empty.contains name = false := by
  simp [empty, contains]

@[simp] theorem order_empty : empty.order = [] := rfl

@[simp] theorem order_push (s : ReachableSet) (name : ClassName) (edge : Edge) :
    (s.push name edge).order = s.order ++ [name] := rfl

@[simp] theorem contains_push (s : ReachableSet) (name other : ClassName) (edge : Edge) :
    (s.push name edge).contains other = true ↔ other = name ∨ s.contains other = true := by
  have h : (s.push name edge).contains other =
      (compare name other == .eq || s.contains other) := Std.TreeMap.contains_insert
  simp [h, eq_comm (a := name)]

theorem edge_push_self (s : ReachableSet) (name : ClassName) (edge : Edge) :
    (s.push name edge).edges[name]? = some edge := by
  simp [push]

theorem edge_push_of_ne (s : ReachableSet) {name other : ClassName} (edge : Edge)
    (h : other ≠ name) : (s.push name edge).edges[other]? = s.edges[other]? := by
  simp [push, Std.TreeMap.getElem?_insert, h.symm]

end ReachableSet

/-! ## The agenda -/

namespace Reachability

variable (seeds : List DeclaredClass) (world : World)

/-- What a name puts on the agenda: the supplied classes that its declaration refers to. -/
def leads (name : ClassName) : List (DeclaredClass × Edge) :=
  ((declaration? seeds world name).map DeclaredClass.references).getD [] |>.filterMap
    fun (target, kind) => (world.find? target).map (·, .reference name kind)

/-- The seeds, and what the names of a list lead to, in the order in which they are met. -/
def agenda (order : List ClassName) : List (DeclaredClass × Edge) :=
  seeds.map (·, .seed) ++ order.flatMap (leads seeds world)

variable {seeds world}

theorem mem_leads {name : ClassName} {c : DeclaredClass} {edge : Edge} :
    (c, edge) ∈ leads seeds world name ↔ ∃ kind, edge = .reference name kind ∧
      RefersTo seeds world kind name c.name ∧ world.find? c.name = some c := by
  simp only [leads, List.mem_filterMap, Prod.exists]
  constructor
  · rintro ⟨target, kind, href, hfind⟩
    obtain ⟨d, hd, heq⟩ := Option.map_eq_some_iff.mp hfind
    obtain ⟨rfl, rfl⟩ := Prod.mk.inj heq
    cases hdecl : declaration? seeds world name with
    | none => simp [hdecl] at href
    | some source =>
      have hname : d.name = target := World.name_of_find? hd
      subst hname
      refine ⟨kind, rfl, ⟨source, hdecl, ?_⟩, hd⟩
      exact DeclaredClass.mem_references.mp (by simpa [hdecl] using href)
  · rintro ⟨kind, rfl, ⟨source, hdecl, href⟩, hfind⟩
    refine ⟨c.name, kind, ?_, by simp [hfind]⟩
    simpa [hdecl] using DeclaredClass.mem_references.mpr href

theorem mem_agenda {order : List ClassName} {c : DeclaredClass} {edge : Edge} :
    (c, edge) ∈ agenda seeds world order ↔
      (c ∈ seeds ∧ edge = .seed) ∨ ∃ name ∈ order, (c, edge) ∈ leads seeds world name := by
  simp [agenda, eq_comm]

theorem agenda_append (front back : List ClassName) :
    agenda seeds world (front ++ back) =
      agenda seeds world front ++ back.flatMap (leads seeds world) := by
  simp [agenda]

/-- Whatever is on the agenda is known. -/
theorem known_of_mem_agenda {order : List ClassName} {c : DeclaredClass} {edge : Edge}
    (h : (c, edge) ∈ agenda seeds world order) : Known seeds world c.name := by
  rcases mem_agenda.mp h with ⟨hc, -⟩ | ⟨name, -, hlead⟩
  · exact .inl ⟨c, hc, rfl⟩
  · obtain ⟨kind, -, -, hfind⟩ := mem_leads.mp hlead
    exact .inr (by simp [hfind])

/-- The first mention of a name on the agenda comes with the declaration that is followed for it. -/
theorem declaration?_of_find? {order : List ClassName} {name : ClassName} {c : DeclaredClass}
    {edge : Edge} (h : (agenda seeds world order).find? (·.1.name = name) = some (c, edge)) :
    declaration? seeds world name = some c := by
  have hname : c.name = name := by simpa using List.find?_some h
  rw [agenda, List.find?_append, List.find?_map] at h
  rw [declaration?]
  rcases Option.or_eq_some_iff.mp h with hseed | ⟨hnone, hlead⟩
  · obtain ⟨d, hd, heq⟩ := Option.map_eq_some_iff.mp hseed
    obtain ⟨rfl, -⟩ := Prod.mk.inj heq
    simp only [Function.comp_def] at hd
    simp [hd]
  · -- No seed has the name, so the mention is a reference to what the world supplies.
    simp only [Option.map_eq_none_iff, Function.comp_def] at hnone
    obtain ⟨source, -, hmem⟩ := List.mem_flatMap.mp (List.mem_of_find?_eq_some hlead)
    obtain ⟨kind, -, -, hfind⟩ := mem_leads.mp hmem
    rw [hnone, Option.none_or, ← hname, hfind]

/-! ## Runs -/

variable (seeds world)

/-- The states of a run: the part of the agenda that is handled, and the classes reached by it. A
step passes over mentions of reached classes and reaches the first class that is new. -/
inductive Run : List (DeclaredClass × Edge) → ReachableSet → Prop where
  | start : Run [] .empty
  | reach {handled front rest : List (DeclaredClass × Edge)} {c : DeclaredClass} {edge : Edge}
      {s : ReachableSet} :
      Run handled s → agenda seeds world s.order = front ++ (c, edge) :: rest →
      handled <+: front → (∀ item ∈ front, s.contains item.1.name = true) →
      s.contains c.name = false → Run (front ++ [(c, edge)]) (s.push c.name edge)

variable {seeds world} {handled : List (DeclaredClass × Edge)} {s : ReachableSet}

theorem Run.contains_iff (h : Run seeds world handled s) (name : ClassName) :
    s.contains name = true ↔ name ∈ s.order := by
  induction h with
  | start => simp
  | reach _ _ _ _ _ ih => simp [ih, or_comm]

theorem Run.ne_of_new (h : Run seeds world handled s) {name new : ClassName}
    (hname : name ∈ s.order) (hnew : s.contains new = false) : name ≠ new := by
  rintro rfl
  simp [(h.contains_iff name).mpr hname] at hnew

theorem Run.nodup (h : Run seeds world handled s) : s.order.Nodup := by
  induction h with
  | start => simp
  | reach hrun _ _ _ hnew ih =>
    refine List.nodup_append.mpr ⟨ih, by simp, ?_⟩
    intro name hname new hlast
    obtain rfl := List.mem_singleton.mp hlast
    exact hrun.ne_of_new hname hnew

theorem Run.handled_begins_agenda (h : Run seeds world handled s) :
    handled <+: agenda seeds world s.order := by
  induction h with
  | start => simp
  | reach _ hagenda _ _ _ _ =>
    rw [ReachableSet.order_push, agenda_append, hagenda]
    exact ⟨_, by rw [List.append_assoc, List.append_assoc]; rfl⟩

/-- Every reached class is handled at a mention with the edge that is kept for it. -/
theorem Run.exists_handled (h : Run seeds world handled s) {name : ClassName}
    (hname : name ∈ s.order) : ∃ item ∈ handled, item.1.name = name ∧
      s.edges[name]? = some item.2 := by
  induction h with
  | start => simp at hname
  | @reach handled front rest c edge s hrun _ hpart _ hnew ih =>
    rcases List.mem_append.mp hname with hold | hlast
    · obtain ⟨item, hitem, hitemName, hedge⟩ := ih hold
      refine ⟨item, List.mem_append_left _ (hpart.mem hitem), hitemName, ?_⟩
      rw [ReachableSet.edge_push_of_ne s edge (hrun.ne_of_new hold hnew), hedge]
    · obtain rfl := List.mem_singleton.mp hlast
      exact ⟨(c, edge), by simp, rfl, ReachableSet.edge_push_self ..⟩

/-- A new class is first mentioned after mentions of reached classes only. -/
theorem find?_of_new {order : List ClassName} {front rest : List (DeclaredClass × Edge)}
    {c : DeclaredClass} {edge : Edge}
    (hagenda : agenda seeds world order = front ++ (c, edge) :: rest)
    (hfront : ∀ item ∈ front, s.contains item.1.name = true) (hnew : s.contains c.name = false) :
    (agenda seeds world order).find? (·.1.name = c.name) = some (c, edge) := by
  have hnone : front.find? (·.1.name = c.name) = none := by
    rw [List.find?_eq_none]
    intro item hitem heq
    have hseen := hfront item hitem
    simp only [decide_eq_true_eq] at heq
    simp [heq, hnew] at hseen
  rw [hagenda, List.find?_append, hnone]
  simp

/-- The edge kept for a reached class is that of its first mention on the agenda. -/
theorem Run.find?_agenda (h : Run seeds world handled s) {name : ClassName}
    (hname : name ∈ s.order) : ∃ c edge,
      (agenda seeds world s.order).find? (·.1.name = name) = some (c, edge) ∧
      s.edges[name]? = some edge := by
  induction h with
  | start => simp at hname
  | @reach handled front rest c edge s hrun hagenda _ hfront hnew ih =>
    rw [ReachableSet.order_push, agenda_append, List.find?_append]
    rcases List.mem_append.mp hname with hold | hlast
    · obtain ⟨d, e, hfind, hedge⟩ := ih hold
      refine ⟨d, e, by rw [hfind, Option.some_or], ?_⟩
      rw [ReachableSet.edge_push_of_ne s edge (hrun.ne_of_new hold hnew), hedge]
    · obtain rfl := List.mem_singleton.mp hlast
      refine ⟨c, edge, ?_, ReachableSet.edge_push_self ..⟩
      rw [find?_of_new hagenda hfront hnew, Option.some_or]

theorem Run.contains_of_mem_handled (h : Run seeds world handled s) {item : DeclaredClass × Edge}
    (hitem : item ∈ handled) : s.contains item.1.name = true := by
  cases h with
  | start => simp at hitem
  | reach _ _ _ hfront _ =>
    rw [ReachableSet.contains_push]
    rcases List.mem_append.mp hitem with hitem | hitem
    · exact .inr (hfront item hitem)
    · exact .inl (by rw [List.mem_singleton.mp hitem])

theorem Run.mem_order_of_edge (h : Run seeds world handled s) {name : ClassName} {edge : Edge}
    (hedge : s.edges[name]? = some edge) : name ∈ s.order := by
  apply (h.contains_iff name).mp
  simp [ReachableSet.contains, Std.TreeMap.contains_eq_isSome_getElem?, hedge]

/-- A reached class is followed with the declaration of its first mention, and the edge kept for it
comes from the agenda. -/
theorem Run.exists_declaration (h : Run seeds world handled s) {name : ClassName} {edge : Edge}
    (hedge : s.edges[name]? = some edge) : ∃ c, declaration? seeds world name = some c ∧
      (c, edge) ∈ agenda seeds world s.order := by
  obtain ⟨c, e, hfind, he⟩ := h.find?_agenda (h.mem_order_of_edge hedge)
  obtain rfl : edge = e := Option.some.inj (hedge.symm.trans he)
  exact ⟨c, declaration?_of_find? hfind, List.mem_of_find?_eq_some hfind⟩

theorem Run.seed_of_edge (h : Run seeds world handled s) {name : ClassName}
    (hedge : s.edges[name]? = some .seed) : ∃ c ∈ seeds, c.name = name := by
  obtain ⟨c, hdecl, hmem⟩ := h.exists_declaration hedge
  rcases mem_agenda.mp hmem with ⟨hc, -⟩ | ⟨source, -, hlead⟩
  · exact ⟨c, hc, name_of_declaration? hdecl⟩
  · obtain ⟨kind, heq, -⟩ := mem_leads.mp hlead
    cases heq

/-- An edge by reference comes from a reached class that makes the reference. -/
theorem Run.refersTo_of_edge (h : Run seeds world handled s) {name source : ClassName}
    {kind : Reference} (hedge : s.edges[name]? = some (.reference source kind)) :
    source ∈ s.order ∧ RefersTo seeds world kind source name := by
  obtain ⟨c, hdecl, hmem⟩ := h.exists_declaration hedge
  rcases mem_agenda.mp hmem with ⟨-, heq⟩ | ⟨origin, horigin, hlead⟩
  · cases heq
  · obtain ⟨kind, heq, href, -⟩ := mem_leads.mp hlead
    cases heq
    rw [name_of_declaration? hdecl] at href
    exact ⟨horigin, href⟩

theorem Run.known (h : Run seeds world handled s) {name : ClassName} (hname : name ∈ s.order) :
    Known seeds world name := by
  obtain ⟨c, edge, hfind, -⟩ := h.find?_agenda hname
  have hc : c.name = name := by simpa using List.find?_some hfind
  exact hc ▸ known_of_mem_agenda (List.mem_of_find?_eq_some hfind)

/-- There are no more reached classes than seeds and supplied classes together. -/
theorem Run.length_le (h : Run seeds world handled s) :
    s.order.length ≤ seeds.length + world.size := by
  have hsubset : s.order ⊆ seeds.map (·.name) ++ world.supplies.keys := by
    intro name hname
    rcases h.known hname with ⟨c, hc, rfl⟩ | hsupplied
    · exact List.mem_append_left _ (List.mem_map_of_mem hc)
    · refine List.mem_append_right _ (Std.TreeMap.mem_keys.mpr ?_)
      simpa [World.find?, Std.TreeMap.isSome_getElem?_iff_mem] using hsupplied
  have hlength := (List.subperm_of_subset h.nodup hsubset).length_le
  simpa [World.size] using hlength

end Reachability

end JvmLinkage
