import JvmLinkage.Proofs.Reachability.Search
import Mathlib.Data.List.Nodup

/-!
# Traces back to a seed

The edges kept for reached classes lead back from each of them to a seed. Every source stands before
the classes reached from it, so the way back ends, and read in the other direction it explains why
the class is reached.
-/

namespace JvmLinkage.Reachability

/-- The way back from a name to a seed over the edges that are kept, the name itself first. -/
inductive Trace (s : ReachableSet) : ClassName → List (ClassName × Via) → Prop where
  | seed {name : ClassName} : s.edges[name]? = some .seed → Trace s name [(name, .seed)]
  | step {name source : ClassName} {kind : Reference} {path : List (ClassName × Via)} :
      s.edges[name]? = some (.reference source kind) → Trace s source path →
      Trace s name ((name, .reference kind) :: path)

/-- A path that explains why a name is reached: it starts at a seed, and the declaration followed
for each class refers to the next one in the way that is given with it. -/
structure IsExplanation (seeds : List DeclaredClass) (world : World)
    (path : List (ClassName × Via)) (name : ClassName) : Prop where
  starts : ∃ c ∈ seeds, path.head? = some (c.name, .seed)
  ends : ∃ via, path.getLast? = some (name, via)
  distinct : (path.map (·.1)).Nodup
  later : ∀ step ∈ path.tail, step.2 ≠ .seed
  linked : path.IsChain fun a b => ∃ kind, b.2 = .reference kind ∧
    RefersTo seeds world kind a.1 b.1 ∧ Known seeds world b.1

variable {seeds : List DeclaredClass} {world : World} {handled : List (DeclaredClass × Edge)}
  {s : ReachableSet} {name : ClassName} {path : List (ClassName × Via)}

theorem Trace.exists_edge (h : Trace s name path) : ∃ edge rest,
    s.edges[name]? = some edge ∧ path = (name, edge.via) :: rest := by
  cases h with
  | seed hedge => exact ⟨_, _, hedge, rfl⟩
  | step hedge _ => exact ⟨_, _, hedge, rfl⟩

/-- Reaching one more class leaves the traces of the others as they are. -/
theorem Trace.push (hrun : Run seeds world handled s) {new : ClassName} {edge : Edge}
    (hnew : s.contains new = false) (h : Trace s name path) :
    Trace (s.push new edge) name path := by
  induction h with
  | seed hedge =>
    refine .seed ?_
    rwa [ReachableSet.edge_push_of_ne s edge (hrun.ne_of_new (hrun.mem_order_of_edge hedge) hnew)]
  | step hedge _ ih =>
    refine .step ?_ ih
    rwa [ReachableSet.edge_push_of_ne s edge (hrun.ne_of_new (hrun.mem_order_of_edge hedge) hnew)]

/-- Every reached class has a trace, which goes back through classes reached earlier and earlier. -/
theorem Run.exists_trace (h : Run seeds world handled s) (hname : name ∈ s.order) :
    ∃ path, Trace s name path ∧ (path.map (·.1)).Sublist s.order.reverse := by
  induction h generalizing name with
  | start => simp at hname
  | @reach handled front rest c edge s hrun hagenda _ _ hnew ih =>
    rw [ReachableSet.order_push, List.reverse_append, List.reverse_singleton,
      List.singleton_append]
    rcases List.mem_append.mp hname with hold | hlast
    · obtain ⟨path, htrace, hsub⟩ := ih hold
      exact ⟨path, htrace.push hrun hnew, hsub.cons c.name⟩
    · obtain rfl := List.mem_singleton.mp hlast
      have hself := ReachableSet.edge_push_self s c.name edge
      cases edge with
      | seed => exact ⟨_, .seed hself, by simp⟩
      | reference source kind =>
        have hmem : (c, .reference source kind) ∈ agenda seeds world s.order := by
          rw [hagenda]
          simp
        have hsource : source ∈ s.order := by
          rcases mem_agenda.mp hmem with ⟨-, heq⟩ | ⟨origin, horigin, hlead⟩
          · cases heq
          · obtain ⟨_, heq, -⟩ := mem_leads.mp hlead
            cases heq
            exact horigin
        obtain ⟨path, htrace, hsub⟩ := ih hsource
        exact ⟨_, .step hself (htrace.push hrun hnew), hsub.cons_cons c.name⟩

/-- Read from the seed on, a trace is linked by the references that its steps name. -/
theorem Trace.linked (hrun : Run seeds world handled s) (h : Trace s name path) :
    path.reverse.IsChain fun a b => ∃ kind, b.2 = .reference kind ∧
      RefersTo seeds world kind a.1 b.1 ∧ Known seeds world b.1 := by
  induction h with
  | seed => simp
  | @step name source kind path hedge htrace ih =>
    obtain ⟨_, rest, -, rfl⟩ := htrace.exists_edge
    rw [List.reverse_cons, List.isChain_append]
    refine ⟨ih, .singleton _, ?_⟩
    intro a ha b hb
    obtain rfl : a = (source, _) := by simpa using ha.symm
    obtain rfl : b = (name, _) := by simpa using hb.symm
    exact ⟨kind, rfl, (hrun.refersTo_of_edge hedge).2, hrun.known (hrun.mem_order_of_edge hedge)⟩

theorem Trace.exists_seed (hrun : Run seeds world handled s) (h : Trace s name path) :
    ∃ c ∈ seeds, path.getLast? = some (c.name, .seed) := by
  induction h with
  | seed hedge =>
    obtain ⟨c, hc, rfl⟩ := hrun.seed_of_edge hedge
    exact ⟨c, hc, by simp⟩
  | step _ htrace ih =>
    obtain ⟨c, hc, hlast⟩ := ih
    exact ⟨c, hc, by simp [List.getLast?_cons, hlast]⟩

theorem Trace.ne_seed (h : Trace s name path) : ∀ step ∈ path.dropLast, step.2 ≠ .seed := by
  induction h with
  | seed => simp
  | step _ htrace ih =>
    obtain ⟨_, rest, -, rfl⟩ := htrace.exists_edge
    simpa using ih

theorem Trace.isExplanation (hrun : Run seeds world handled s) (h : Trace s name path)
    (hsub : (path.map (·.1)).Sublist s.order.reverse) :
    IsExplanation seeds world path.reverse name where
  starts := by simpa using h.exists_seed hrun
  ends := by
    obtain ⟨edge, rest, -, rfl⟩ := h.exists_edge
    exact ⟨edge.via, by simp⟩
  distinct := by
    rw [List.map_reverse, List.nodup_reverse]
    exact hsub.nodup (List.nodup_reverse.mpr hrun.nodup)
  later := by
    intro step hstep
    rw [List.tail_reverse, List.mem_reverse] at hstep
    exact h.ne_seed step hstep
  linked := h.linked hrun

theorem IsExplanation.isChain (h : IsExplanation seeds world path name) :
    IsChain seeds world (path.map (·.1)) name where
  starts := by
    obtain ⟨c, hc, hhead⟩ := h.starts
    exact ⟨c, hc, by simp [hhead]⟩
  linked := by
    rw [List.isChain_map]
    refine h.linked.imp ?_
    rintro a b ⟨kind, -, href, hknown⟩
    exact ⟨⟨kind, href⟩, hknown⟩
  ends := by
    obtain ⟨via, hlast⟩ := h.ends
    simp [hlast]

end JvmLinkage.Reachability
