import JvmLinkage.Proofs.Checking
import JvmLinkage.Proofs.Reachability.Closure

/-!
# Paths are shortest explanations

The number of edges on the way back from a class to a seed is its level. Classes are reached in the
order of their levels, since the agenda mentions them in that order, and so no reference leads up by
more than one level. A chain from a seed is therefore never shorter than the path that is kept.
-/

namespace JvmLinkage.Reachability

open ReachableSet

variable {seeds : List DeclaredClass} {world : World} {handled : List (DeclaredClass × Edge)}
  {s : ReachableSet} {name : ClassName} {path : List (ClassName × Via)} {level : ClassName → Nat}

/-! ## Levels -/

/-- The level of what an edge leads to, given the levels of names. -/
def edgeLevel (level : ClassName → Nat) : Edge → Nat
  | .seed => 0
  | .reference source _ => level source + 1

/-- The levels of names agree with the edges that are kept. -/
def Levels (s : ReachableSet) (level : ClassName → Nat) : Prop :=
  ∀ name edge, s.edges[name]? = some edge → level name = edgeLevel level edge

theorem agenda_levels {order : List ClassName} (h : order.Pairwise (level · ≤ level ·)) :
    (agenda seeds world order).Pairwise
      fun a b => edgeLevel level a.2 ≤ edgeLevel level b.2 := by
  have hlead {source : ClassName} {item : DeclaredClass × Edge}
      (hitem : item ∈ leads seeds world source) : edgeLevel level item.2 = level source + 1 := by
    obtain ⟨c, edge⟩ := item
    obtain ⟨kind, rfl, -⟩ := mem_leads.mp hitem
    rfl
  refine List.pairwise_append.mpr ⟨?_, ?_, ?_⟩
  · exact List.pairwise_map.mpr (List.pairwise_of_forall fun _ _ => Nat.le_refl 0)
  · refine List.pairwise_flatMap.mpr ⟨?_, h.imp ?_⟩
    · intro source _
      refine List.pairwise_of_forall_mem_list ?_
      intro a ha b hb
      rw [hlead ha, hlead hb]
    · intro source target hle a ha b hb
      rw [hlead ha, hlead hb]
      omega
  · intro a ha b _
    obtain ⟨c, -, rfl⟩ := List.mem_map.mp ha
    exact Nat.zero_le _

/-- Classes are reached in the order of their levels. -/
theorem Run.levels (h : Run seeds world handled s) (hlevel : Levels s level) :
    s.order.Pairwise (level · ≤ level ·) := by
  induction h with
  | start => simp
  | @reach handled front rest c edge s hrun hagenda hpart _ hnew ih =>
    have hold {name : ClassName} {e : Edge} (he : s.edges[name]? = some e) :
        level name = edgeLevel level e := by
      apply hlevel
      rwa [edge_push_of_ne s edge (hrun.ne_of_new (hrun.mem_order_of_edge he) hnew)]
    have horder := ih fun name e he => hold he
    refine List.pairwise_append.mpr ⟨horder, List.pairwise_singleton .., ?_⟩
    intro name hname new hlast
    obtain rfl := List.mem_singleton.mp hlast
    -- The mention at which `name` was reached stands before that of the new class.
    obtain ⟨item, hitem, -, hedge⟩ := hrun.exists_handled hname
    have hsorted : (agenda seeds world s.order).Pairwise _ := agenda_levels horder
    rw [hagenda, List.pairwise_append] at hsorted
    have hle := hsorted.2.2 item (hpart.mem hitem) (c, edge) (List.mem_cons_self ..)
    rw [hold hedge, hlevel c.name edge (edge_push_self ..)]
    exact hle

/-- No mention of a reached class stands for a smaller level than its own. -/
theorem Run.level_le_of_mem_agenda (h : Run seeds world handled s) (hlevel : Levels s level)
    {item : DeclaredClass × Edge} (hitem : item ∈ agenda seeds world s.order)
    (hname : item.1.name ∈ s.order) : level item.1.name ≤ edgeLevel level item.2 := by
  obtain ⟨c, edge, hfind, hedge⟩ := h.find?_agenda hname
  obtain ⟨-, front, rest, hagenda, hfront⟩ := List.find?_eq_some_iff_append.mp hfind
  have hsorted : (agenda seeds world s.order).Pairwise _ := agenda_levels (h.levels hlevel)
  rw [hagenda] at hsorted hitem
  rw [hlevel _ edge hedge]
  rcases List.mem_append.mp hitem with hitem | hitem
  · simpa using hfront item hitem
  · rcases List.mem_cons.mp hitem with rfl | hitem
    · exact Nat.le_refl _
    · exact List.rel_of_pairwise_cons (List.pairwise_append.mp hsorted).2.1 hitem

theorem Run.level_le_of_refersTo (h : Run seeds world handled s)
    (hfinished : Finished seeds world s) (hlevel : Levels s level) {source target : ClassName}
    {kind : Reference} (hsource : source ∈ s.order)
    (href : RefersTo seeds world kind source target) (hknown : Known seeds world target) :
    level target ≤ level source + 1 := by
  have htarget := mem_order_of_refersTo h hfinished hsource href hknown
  rcases hknown with ⟨c, hc, rfl⟩ | hsupplied
  · have hseed := h.level_le_of_mem_agenda hlevel (mem_agenda.mpr (.inl ⟨hc, rfl⟩)) htarget
    simp only [edgeLevel] at hseed
    omega
  · obtain ⟨c, hfind⟩ := Option.isSome_iff_exists.mp hsupplied
    obtain rfl := World.name_of_find? hfind
    have hlead : (c, .reference source kind) ∈ leads seeds world source :=
      mem_leads.mpr ⟨kind, rfl, href, hfind⟩
    exact h.level_le_of_mem_agenda hlevel (mem_agenda.mpr (.inr ⟨source, hsource, hlead⟩)) htarget

/-- A chain of references has more names than the level of the last one. -/
theorem Run.level_lt_length (h : Run seeds world handled s) (hfinished : Finished seeds world s)
    (hlevel : Levels s level) {chain : List ClassName} (hchain : IsChain seeds world chain name) :
    level name < chain.length := by
  obtain ⟨⟨seed, hseed, hhead⟩, hlinked, hlast⟩ := hchain
  have hbound : ∀ (rest : List ClassName) (first : ClassName), first ∈ s.order →
      (first :: rest).IsChain (fun a b => (∃ kind, RefersTo seeds world kind a b) ∧
        Known seeds world b) →
      (first :: rest).getLast? = some name → level name ≤ level first + rest.length := by
    intro rest
    induction rest with
    | nil =>
      intro first _ _ hlast
      obtain rfl : first = name := by simpa using hlast
      simp
    | cons next rest ih =>
      intro first hfirst hlinked hlast
      obtain ⟨⟨⟨kind, href⟩, hknown⟩, hrest⟩ := List.isChain_cons_cons.mp hlinked
      have hnext := mem_order_of_refersTo h hfinished hfirst href hknown
      have hstep := h.level_le_of_refersTo hfinished hlevel hfirst href hknown
      have hle := ih next hnext hrest (by simpa [List.getLast?_cons_cons] using hlast)
      rw [List.length_cons]
      omega
  cases chain with
  | nil => simp at hhead
  | cons first rest =>
    obtain rfl : first = seed.name := by simpa using hhead
    have hzero : level seed.name ≤ 0 :=
      h.level_le_of_mem_agenda hlevel (mem_agenda.mpr (.inl ⟨hseed, rfl⟩))
        (mem_order_of_seed h hfinished hseed)
    have hle := hbound rest seed.name (mem_order_of_seed h hfinished hseed) hlinked hlast
    rw [List.length_cons]
    omega

/-! ## The path that is kept -/

/-- Walking back follows the trace, given enough steps. -/
theorem Trace.pathBack_eq (h : Trace s name path) {n : Nat} (hn : path.length ≤ n) :
    s.pathBack n name = path := by
  induction h generalizing n with
  | seed hedge =>
    cases n with
    | zero => simp at hn
    | succ n => simp [pathBack, hedge]
  | step hedge _ ih =>
    cases n with
    | zero => simp at hn
    | succ n => simp [pathBack, hedge, ih (Nat.le_of_succ_le_succ hn)]

/-- The path back from a reached class is its trace. -/
theorem Run.exists_pathBack (h : Run seeds world handled s) (hname : name ∈ s.order) :
    ∃ path, Trace s name path ∧ (path.map (·.1)).Sublist s.order.reverse ∧
      ∀ n, s.size ≤ n → s.pathBack n name = path := by
  obtain ⟨path, htrace, hsub⟩ := h.exists_trace hname
  refine ⟨path, htrace, hsub, ?_⟩
  intro n hn
  refine htrace.pathBack_eq (Nat.le_trans ?_ hn)
  simpa [size] using hsub.length_le

/-- The lengths of the paths back are levels. -/
theorem Run.levels_pathBack (h : Run seeds world handled s) :
    Levels s fun name => (s.pathBack s.size name).length - 1 := by
  intro name edge hedge
  obtain ⟨path, htrace, hsub, hback⟩ := h.exists_pathBack (h.mem_order_of_edge hedge)
  simp only [hback s.size (Nat.le_refl _)]
  cases htrace with
  | seed hseed =>
    obtain rfl : edge = .seed := Option.some.inj (hedge.symm.trans hseed)
    rfl
  | @step _ source kind rest hstep hrest =>
    obtain rfl : edge = .reference source kind := Option.some.inj (hedge.symm.trans hstep)
    have hlength : rest.length ≤ s.size := by
      have hle := hsub.length_le
      simp only [List.map_cons, List.length_cons, List.length_map, List.length_reverse] at hle
      exact Nat.le_of_succ_le hle
    obtain ⟨_, _, -, rfl⟩ := hrest.exists_edge
    simp [edgeLevel, hrest.pathBack_eq hlength]

/-- A class reached by reference has its edge from the earliest reached class whose declaration
refers to it. -/
theorem Run.earliest_source (h : Run seeds world handled s) {source : ClassName}
    {kind : Reference} (hedge : s.edges[name]? = some (.reference source kind)) :
    ∃ before after, s.order = before ++ source :: after ∧
      ∀ earlier ∈ before, ∀ kind, ¬ RefersTo seeds world kind earlier name := by
  obtain ⟨c, edge, hfind, he⟩ := h.find?_agenda (h.mem_order_of_edge hedge)
  obtain rfl : edge = .reference source kind := Option.some.inj (he.symm.trans hedge)
  have hname : c.name = name := by simpa using List.find?_some hfind
  rw [agenda, List.find?_append, List.find?_map] at hfind
  rcases Option.or_eq_some_iff.mp hfind with hseed | ⟨-, hlead⟩
  · obtain ⟨d, -, heq⟩ := Option.map_eq_some_iff.mp hseed
    cases heq
  · rw [List.find?_flatMap] at hlead
    obtain ⟨before, origin, after, horder, hfirst, hbefore⟩ := List.findSome?_eq_some_iff.mp hlead
    obtain ⟨_, heq, -, hsupplied⟩ := mem_leads.mp (List.mem_of_find?_eq_some hfirst)
    cases heq
    refine ⟨before, after, horder, ?_⟩
    intro earlier hearlier kind href
    -- The reference would have put the class on the agenda earlier.
    have hnone := List.find?_eq_none.mp (hbefore earlier hearlier) (c, .reference earlier kind)
      (mem_leads.mpr ⟨kind, rfl, hname ▸ href, hsupplied⟩)
    simp [hname] at hnone

/-- The path to a reached class is its trace, read from the seed on. -/
theorem Run.exists_pathTo? (h : Run seeds world handled s) (hname : s.contains name = true) :
    ∃ path, Trace s name path ∧ s.pathTo? name = some path.reverse ∧
      (∀ n, s.size ≤ n → (s.pathBack n name).reverse = path.reverse) ∧
      IsExplanation seeds world path.reverse name := by
  obtain ⟨path, htrace, hsub, hback⟩ := h.exists_pathBack ((h.contains_iff name).mp hname)
  refine ⟨path, htrace, ?_, fun n hn => by rw [hback n hn], htrace.isExplanation h hsub⟩
  rw [pathTo?, if_pos hname, hback s.size (Nat.le_refl _)]

/-- Every reached class has a path, however long the walk back may take: a shortest explanation, in
which a class that is no seed comes after the earliest reached class that refers to it. No other
class has a path, and the classes that conflicts are reported from all have one. -/
theorem pathTo?_shortest_explanation :
    (∀ (seeds : List DeclaredClass) (world : World) (name : ClassName),
      let s := ofSeeds seeds world
      s.contains name = true → ∃ path, s.pathTo? name = some path ∧
        (∀ n, s.size ≤ n → (s.pathBack n name).reverse = path) ∧
        IsExplanation seeds world path name ∧
        (∀ chain, IsChain seeds world chain name → path.length ≤ chain.length) ∧
        ((∀ c ∈ seeds, c.name ≠ name) → ∃ before source after front via kind,
          s.order = before ++ source :: after ∧
          path = front ++ [(source, via), (name, .reference kind)] ∧
          RefersTo seeds world kind source name ∧
          ∀ earlier ∈ before, ∀ kind, ¬ RefersTo seeds world kind earlier name)) ∧
    (∀ (seeds : List DeclaredClass) (world : World) (name : ClassName),
      (ofSeeds seeds world).contains name = false → (ofSeeds seeds world).pathTo? name = none) ∧
    (∀ (jobs : Int) (project : Artifact) (toCheck all : List Artifact),
      ∀ k ∈ (check jobs project toCheck all).conflicts, ∃ path,
        (check jobs project toCheck all).reachable.pathTo? k.dependency.fromClass = some path ∧
          path ≠ []) := by
  refine ⟨?_, ?_, ?_⟩
  · intro seeds world name s hname
    obtain ⟨⟨handled, hrun⟩, hfinished, -⟩ := exists_run_ofSeeds seeds world
    obtain ⟨path, htrace, hpath, hback, hexplains⟩ := hrun.exists_pathTo? hname
    refine ⟨path.reverse, hpath, hback, hexplains, ?_, ?_⟩
    · intro chain hchain
      have hlt := hrun.level_lt_length hfinished hrun.levels_pathBack hchain
      have hlength := congrArg List.length (hback (ofSeeds seeds world).size (Nat.le_refl _))
      simp only [List.length_reverse] at hlength ⊢
      omega
    · intro hnoSeed
      cases htrace with
      | seed hedge =>
        obtain ⟨c, hc, rfl⟩ := hrun.seed_of_edge hedge
        exact absurd rfl (hnoSeed c hc)
      | @step _ source kind rest hedge hrest =>
        obtain ⟨before, after, horder, hearlier⟩ := hrun.earliest_source hedge
        obtain ⟨edge, front, -, rfl⟩ := hrest.exists_edge
        exact ⟨before, source, after, front.reverse, edge.via, kind, horder, by simp,
          (hrun.refersTo_of_edge hedge).2, hearlier⟩
  · intro seeds world name hname
    rw [pathTo?, if_neg (by simp [hname])]
  · intro jobs project toCheck all k hk
    obtain ⟨⟨_, hrun⟩, -⟩ := exists_run_ofSeeds project.classes (World.ofArtifacts all)
    obtain ⟨path, htrace, hpath, -⟩ :=
      hrun.exists_pathTo? (contains_fromClass_of_mem_conflicts hk)
    refine ⟨path.reverse, hpath, ?_⟩
    obtain ⟨_, _, -, rfl⟩ := htrace.exists_edge
    simp

end JvmLinkage.Reachability
