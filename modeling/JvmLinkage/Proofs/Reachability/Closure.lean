import JvmLinkage.Proofs.Reachability.Trace
import Mathlib.Data.List.TakeWhile
import Mathlib.Data.Set.Card

/-!
# The search computes the closure of references

Following the queue is a run: what waits in the queue and is new is what the agenda mentions and is
new. A run is finished once its agenda mentions nothing new, and the bound on the number of reached
classes shows that the search never stops before that. The set that is left is closed under
references between known names.
-/

namespace JvmLinkage

/-- Whether an item of the queue is about a class that is not reached yet. -/
def ReachableSet.isNew (s : ReachableSet) (item : DeclaredClass × Edge) : Bool :=
  !s.contains item.1.name

namespace Reachability

open ReachableSet

variable {seeds : List DeclaredClass} {world : World}
  {handled queue rest fresh : List (DeclaredClass × Edge)} {s : ReachableSet}

/-! ## Following the queue is a run -/

theorem explore_of_filter_eq_nil (n : Nat) (h : queue.filter s.isNew = []) :
    explore world n queue s = s := by
  cases n with
  | zero => rfl
  | succ n =>
    have hdrop : queue.dropWhile (fun item => s.contains item.1.name) = [] := by
      rw [List.dropWhile_eq_nil_iff]
      simpa [isNew, List.filter_eq_nil_iff] using h
    simp only [explore, hdrop]

/-- The search passes over items about reached classes. -/
theorem exists_explore_of_filter_eq_cons {c : DeclaredClass} {edge : Edge}
    (h : queue.filter s.isNew = (c, edge) :: fresh) : ∃ rest, rest.filter s.isNew = fresh ∧
      ∀ n, explore world (n + 1) queue s = explore world n
        (rest ++ (s.push c.name edge).successors world c) (s.push c.name edge) := by
  obtain ⟨front, rest, rfl, hfront, hnew, hrest⟩ := List.filter_eq_cons_iff.mp h
  have hdrop : (front ++ (c, edge) :: rest).dropWhile (fun item => s.contains item.1.name) =
      (c, edge) :: rest := by
    rw [List.dropWhile_append_of_pos (by simpa [isNew] using hfront)]
    exact List.dropWhile_cons_of_neg (by simpa [isNew] using hnew)
  exact ⟨rest, hrest, fun n => by simp only [explore, hdrop]⟩

theorem successors_eq {c : DeclaredClass} (hdecl : declaration? seeds world c.name = some c) :
    s.successors world c = (leads seeds world c.name).filter s.isNew := by
  rw [leads, List.filter_filterMap, hdecl]
  refine List.filterMap_congr ?_
  rintro ⟨target, kind⟩ -
  cases hfind : world.find? target with
  | none => simp [hfind]
  | some d =>
    by_cases hseen : s.contains target <;>
      simp [hfind, Option.filter_some, isNew, World.name_of_find? hfind, hseen]

theorem filter_isNew_push {name : ClassName} {edge : Edge} (items : List (DeclaredClass × Edge)) :
    items.filter (s.push name edge).isNew =
      (items.filter s.isNew).filter (s.push name edge).isNew := by
  rw [List.filter_filter]
  refine List.filter_congr ?_
  intro item _
  by_cases hseen : s.contains item.1.name = true
  · have hpush : (s.push name edge).contains item.1.name = true := by simp [hseen]
    simp [isNew, hseen, hpush]
  · simp [isNew, hseen]

/-- A step of the search is a step of a run: the first new item of the queue is the first new
mention on the agenda, and queue and agenda still agree afterwards. -/
theorem Run.step (h : Run seeds world handled s) {c : DeclaredClass} {edge : Edge}
    (hqueue : (c, edge) :: rest.filter s.isNew = (agenda seeds world s.order).filter s.isNew) :
    let next := s.push c.name edge
    (∃ handled, Run seeds world handled next) ∧
      (rest ++ next.successors world c).filter next.isNew =
        (agenda seeds world next.order).filter next.isNew := by
  intro next
  obtain ⟨front, back, hagenda, hfront, hnew, hback⟩ := List.filter_eq_cons_iff.mp hqueue.symm
  have hseen : ∀ item ∈ front, s.contains item.1.name = true := by simpa [isNew] using hfront
  have hc : s.contains c.name = false := by simpa [isNew] using hnew
  have hpart : handled <+: front := by
    have hhandled := h.handled_begins_agenda
    rw [hagenda] at hhandled
    rcases List.prefix_or_prefix_of_prefix hhandled ⟨_, rfl⟩ with hle | ⟨more, rfl⟩
    · exact hle
    · -- Otherwise the new class would be among those handled.
      cases more with
      | nil => simp
      | cons item more =>
        obtain ⟨tail, htail⟩ := hhandled
        rw [List.append_assoc, List.append_cancel_left_eq] at htail
        obtain ⟨rfl, -⟩ := List.cons.inj htail
        have hcontains := h.contains_of_mem_handled
          (List.mem_append_right front (List.mem_cons_self ..))
        simp [hc] at hcontains
  have hrun : Run seeds world (front ++ [(c, edge)]) next := .reach h hagenda hpart hseen hc
  refine ⟨⟨_, hrun⟩, ?_⟩
  have hdecl : declaration? seeds world c.name = some c :=
    declaration?_of_find? (find?_of_new hagenda hseen hc)
  have hhandled : (front ++ [(c, edge)]).filter next.isNew = [] := by
    rw [List.filter_eq_nil_iff]
    intro item hitem
    simp [isNew, hrun.contains_of_mem_handled hitem]
  have hnext : agenda seeds world next.order =
      front ++ [(c, edge)] ++ (back ++ leads seeds world c.name) := by
    rw [order_push, agenda_append, hagenda]
    simp
  calc
    (rest ++ next.successors world c).filter next.isNew
      = (rest.filter s.isNew).filter next.isNew
          ++ (leads seeds world c.name).filter next.isNew := by
        rw [List.filter_append, filter_isNew_push, successors_eq hdecl, List.filter_filter]
        simp
    _ = (back ++ leads seeds world c.name).filter next.isNew := by
        rw [← hback, ← filter_isNew_push, ← List.filter_append]
    _ = (agenda seeds world next.order).filter next.isNew := by
        rw [hnext, List.filter_append (front ++ _), hhandled, List.nil_append]

/-- The agenda mentions nothing new. -/
def Finished (seeds : List DeclaredClass) (world : World) (s : ReachableSet) : Prop :=
  ∀ item ∈ agenda seeds world s.order, s.contains item.1.name = true

/-- The search is a run that goes on until it is finished or has reached as many classes as it may,
and a finished one does not go on. -/
theorem Run.explore (h : Run seeds world handled s) (n : Nat)
    (hqueue : queue.filter s.isNew = (agenda seeds world s.order).filter s.isNew) :
    let result := ReachableSet.explore world n queue s
    (∃ handled, Run seeds world handled result) ∧
      (Finished seeds world result ∨ result.order.length = s.order.length + n) ∧
      (Finished seeds world result →
        ∀ more, ReachableSet.explore world (n + more) queue s = result) := by
  induction n generalizing queue s handled with
  | zero =>
    refine ⟨⟨handled, h⟩, .inr rfl, ?_⟩
    intro hfinished more
    apply explore_of_filter_eq_nil
    rw [hqueue, List.filter_eq_nil_iff]
    intro item hitem
    have hseen : s.contains item.1.name = true := hfinished item hitem
    simp [isNew, hseen]
  | succ n ih =>
    cases hfresh : queue.filter s.isNew with
    | nil =>
      rw [explore_of_filter_eq_nil _ hfresh]
      refine ⟨⟨handled, h⟩, .inl ?_, fun _ more => explore_of_filter_eq_nil _ hfresh⟩
      rw [hqueue, List.filter_eq_nil_iff] at hfresh
      simpa [isNew, Finished] using hfresh
    | cons item fresh =>
      obtain ⟨c, edge⟩ := item
      obtain ⟨rest, rfl, hexplore⟩ := exists_explore_of_filter_eq_cons hfresh
      obtain ⟨⟨_, hrun⟩, hnext⟩ := h.step (hfresh.symm.trans hqueue)
      obtain ⟨hresult, hbound, hmore⟩ := ih hrun hnext
      rw [hexplore n]
      refine ⟨hresult, ?_, ?_⟩
      · rw [order_push, List.length_append, List.length_singleton] at hbound
        exact hbound.imp_right (by omega)
      · intro hfinished more
        rw [Nat.add_right_comm, hexplore (n + more), hmore hfinished]

/-- The search from the seeds is a run that is finished, however many more classes it may reach. -/
theorem exists_run_ofSeeds (seeds : List DeclaredClass) (world : World) :
    (∃ handled, Run seeds world handled (ofSeeds seeds world)) ∧
      Finished seeds world (ofSeeds seeds world) ∧
      ∀ n, seeds.length + world.size ≤ n →
        ReachableSet.explore world n (seeds.map (·, .seed)) empty = ofSeeds seeds world := by
  have hqueue : (seeds.map (·, Edge.seed)).filter empty.isNew =
      (agenda seeds world empty.order).filter empty.isNew := by
    simp [agenda]
  have hstart : Run seeds world [] empty := .start
  obtain ⟨⟨handled, hrun⟩, hbound, hmore⟩ := hstart.explore (seeds.length + world.size) hqueue
  rw [← ofSeeds] at hrun hbound hmore
  have hfinished : Finished seeds world (ofSeeds seeds world) := by
    rcases hbound with hfinished | hlength
    · exact hfinished
    · -- With a new class on the agenda the run could take one step more than its bound allows.
      by_contra hunfinished
      have hnew : (agenda seeds world (ofSeeds seeds world).order).filter
          (ofSeeds seeds world).isNew ≠ [] := by
        rw [Ne, List.filter_eq_nil_iff]
        simpa [Finished, isNew] using hunfinished
      obtain ⟨⟨c, edge⟩, fresh, hfresh⟩ := List.exists_cons_of_ne_nil hnew
      obtain ⟨_, rest, -, -, -, rfl⟩ := List.filter_eq_cons_iff.mp hfresh
      obtain ⟨⟨_, hnext⟩, -⟩ := hrun.step hfresh.symm
      have hle := hnext.length_le
      rw [order_push, List.length_append, List.length_singleton, hlength, order_empty] at hle
      simp at hle
  refine ⟨⟨handled, hrun⟩, hfinished, ?_⟩
  intro n hn
  obtain ⟨more, rfl⟩ := Nat.exists_eq_add_of_le hn
  exact hmore hfinished more

/-! ## Finished runs are closed under references -/

theorem mem_order_of_seed (h : Run seeds world handled s) (hfinished : Finished seeds world s)
    {c : DeclaredClass} (hc : c ∈ seeds) : c.name ∈ s.order :=
  (h.contains_iff c.name).mp (hfinished (c, .seed) (mem_agenda.mpr (.inl ⟨hc, rfl⟩)))

theorem mem_order_of_refersTo (h : Run seeds world handled s) (hfinished : Finished seeds world s)
    {source target : ClassName} {kind : Reference} (hsource : source ∈ s.order)
    (href : RefersTo seeds world kind source target) (hknown : Known seeds world target) :
    target ∈ s.order := by
  rcases hknown with ⟨c, hc, rfl⟩ | hsupplied
  · exact mem_order_of_seed h hfinished hc
  · obtain ⟨c, hfind⟩ := Option.isSome_iff_exists.mp hsupplied
    obtain rfl := World.name_of_find? hfind
    have hlead : (c, .reference source kind) ∈ leads seeds world source :=
      mem_leads.mpr ⟨kind, rfl, href, hfind⟩
    apply (h.contains_iff c.name).mp
    exact hfinished (c, .reference source kind) (mem_agenda.mpr (.inr ⟨source, hsource, hlead⟩))

/-- A chain of references ends in a reached class. -/
theorem mem_order_of_isChain (h : Run seeds world handled s) (hfinished : Finished seeds world s)
    {chain : List ClassName} {name : ClassName} (hchain : IsChain seeds world chain name) :
    name ∈ s.order := by
  obtain ⟨⟨seed, hseed, hhead⟩, hlinked, hlast⟩ := hchain
  refine hlinked.induction (· ∈ s.order) chain ?_ ?_ name (List.mem_of_getLast? hlast)
  · intro a b ⟨⟨kind, href⟩, hknown⟩ ha
    exact mem_order_of_refersTo h hfinished ha href hknown
  · intro hne
    rw [List.head?_eq_some_head hne] at hhead
    rw [Option.some.inj hhead]
    exact mem_order_of_seed h hfinished hseed

/-- The search from the seeds stops by itself. A name is reached exactly if a chain of references
leads to it from a seed, and every reached name, which is always a known one, is listed once. -/
theorem ofSeeds_closure (seeds : List DeclaredClass) (world : World) :
    let s := ofSeeds seeds world
    (∀ n, seeds.length + world.size ≤ n →
      ReachableSet.explore world n (seeds.map (·, .seed)) empty = s) ∧
    (∀ name, s.contains name = true ↔ ∃ chain, IsChain seeds world chain name) ∧
    (∀ name, s.order.count name = if s.contains name then 1 else 0) ∧
    s.size = {name | s.contains name = true}.ncard ∧
    (∀ name, s.contains name = true → Known seeds world name) := by
  intro s
  obtain ⟨⟨handled, hrun⟩, hfinished, hstops⟩ := exists_run_ofSeeds seeds world
  refine ⟨hstops, ?_, ?_, ?_, ?_⟩
  · intro name
    rw [hrun.contains_iff]
    constructor
    · intro hname
      obtain ⟨path, htrace, hsub⟩ := hrun.exists_trace hname
      exact ⟨_, (htrace.isExplanation hrun hsub).isChain⟩
    · rintro ⟨chain, hchain⟩
      exact mem_order_of_isChain hrun hfinished hchain
  · intro name
    by_cases hname : s.contains name = true
    · rw [if_pos hname]
      exact List.count_eq_one_of_mem hrun.nodup ((hrun.contains_iff name).mp hname)
    · rw [if_neg hname]
      exact List.count_eq_zero_of_not_mem fun hmem => hname ((hrun.contains_iff name).mpr hmem)
  · have hmembers : {name | s.contains name = true} = ↑s.order.toFinset := by
      ext name
      simpa using hrun.contains_iff name
    rw [hmembers, Set.ncard_coe_finset, List.toFinset_card_of_nodup hrun.nodup]
    rfl
  · intro name hname
    exact hrun.known ((hrun.contains_iff name).mp hname)

end Reachability

end JvmLinkage
