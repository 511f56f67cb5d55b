import JvmLinkage.Linkage.Resolution
import JvmLinkage.Proofs.Reachability.Search

/-!
# Searches find what paths lead to

A search succeeds from a class on if a path of supplied parents leads to a class that decides it with
success, and no class before that decides it at all. The names seen on the way never hide such a
class: when a search fails, every class seen has been looked at together with its parents. A world
has too few names for the bound on the depth to matter.
-/

namespace JvmLinkage.World

variable {w : World} {answer : DeclaredClass → Option Bool} {c : DeclaredClass}

/-- A search is decided with success in a class, or above it where the class itself does not decide
it. -/
inductive Resolves (w : World) (answer : DeclaredClass → Option Bool) : DeclaredClass → Prop where
  | here {c : DeclaredClass} : answer c = some true → Resolves w answer c
  | above {c d : DeclaredClass} {parent : ClassName} : answer c = none → parent ∈ c.parents →
      w.find? parent = some d → Resolves w answer d → Resolves w answer c

/-- A search that is decided in one world is decided in another one, where the parents on its way
stand for the same classes. -/
theorem Resolves.transfer {w' : World} {P : DeclaredClass → Prop}
    (hstep : ∀ {c d parent}, P c → parent ∈ c.parents → w.find? parent = some d →
      w'.find? parent = some d ∧ P d)
    (h : Resolves w answer c) (hc : P c) : Resolves w' answer c := by
  induction h with
  | here hanswer => exact .here hanswer
  | above hanswer hparent hd _ ih =>
    obtain ⟨hd', hP⟩ := hstep hc hparent hd
    exact .above hanswer hparent hd' (ih hP)

/-! ## Searches without a bound -/

mutual

/-- A search in a class and above it that goes on for as long as it has to: the class, the names seen
before, whether the search succeeds, and the names seen in the end. The parents of each class are
looked at in a given order. -/
inductive Searched (w : World) (answer : DeclaredClass → Option Bool)
    (order : DeclaredClass → List ClassName) :
    DeclaredClass → List ClassName → Bool → List ClassName → Prop where
  | again {c : DeclaredClass} {seen : List ClassName} :
      c.name ∈ seen → Searched w answer order c seen false seen
  | decided {c : DeclaredClass} {seen : List ClassName} {found : Bool} :
      c.name ∉ seen → answer c = some found → Searched w answer order c seen found (c.name :: seen)
  | above {c : DeclaredClass} {seen seen' : List ClassName} {found : Bool} :
      c.name ∉ seen → answer c = none →
        SearchedAny w answer order (order c) (c.name :: seen) found seen' →
        Searched w answer order c seen found seen'

/-- A search in one class after the other, up to the first in which it succeeds. -/
inductive SearchedAny (w : World) (answer : DeclaredClass → Option Bool)
    (order : DeclaredClass → List ClassName) :
    List ClassName → List ClassName → Bool → List ClassName → Prop where
  | none {seen : List ClassName} : SearchedAny w answer order [] seen false seen
  | absent {p : ClassName} {parents seen seen' : List ClassName} {found : Bool} :
      w.find? p = none → SearchedAny w answer order parents seen found seen' →
        SearchedAny w answer order (p :: parents) seen found seen'
  | found {p : ClassName} {parents seen seen' : List ClassName} {d : DeclaredClass} :
      w.find? p = some d → Searched w answer order d seen true seen' →
        SearchedAny w answer order (p :: parents) seen true seen'
  | failed {p : ClassName} {parents seen mid seen' : List ClassName} {d : DeclaredClass}
      {found : Bool} :
      w.find? p = some d → Searched w answer order d seen false mid →
        SearchedAny w answer order parents mid found seen' →
        SearchedAny w answer order (p :: parents) seen found seen'

end

theorem find?_name {name : ClassName} (h : w.find? name = some c) : w.find? c.name = some c := by
  rw [name_of_find? h, h]

/-- Names of supplied classes, each once. -/
structure Listed (w : World) (names : List ClassName) : Prop where
  nodup : names.Nodup
  supplied : ∀ name ∈ names, (w.find? name).isSome

theorem listed_nil : w.Listed [] := ⟨List.nodup_nil, nofun⟩

theorem Listed.length_le {seen : List ClassName} (h : w.Listed seen) : seen.length ≤ w.size := by
  have hsubset : seen ⊆ w.supplies.keys := by
    intro name hname
    rw [Std.TreeMap.mem_keys]
    simpa [find?, Std.TreeMap.isSome_getElem?_iff_mem] using h.supplied name hname
  have hlength := (List.subperm_of_subset h.nodup hsubset).length_le
  rwa [Std.TreeMap.length_keys] at hlength

theorem Listed.cons {seen : List ClassName} (h : w.Listed seen) (hc : w.find? c.name = some c)
    (hnew : c.name ∉ seen) : w.Listed (c.name :: seen) where
  nodup := List.nodup_cons.mpr ⟨hnew, h.nodup⟩
  supplied := by
    intro name hname
    rcases List.mem_cons.mp hname with rfl | hname
    · simp [hc]
    · exact h.supplied name hname

/-- One list of names seen that a search has made longer. -/
structure Grows (w : World) (seen seen' : List ClassName) : Prop where
  listed : w.Listed seen'
  length_le : seen.length ≤ seen'.length

section Runs

variable {order : DeclaredClass → List ClassName}

mutual

theorem Searched.grows {c : DeclaredClass} {seen seen' : List ClassName} {found : Bool}
    (hc : w.find? c.name = some c) (hseen : w.Listed seen) :
    Searched w answer order c seen found seen' → w.Grows seen seen'
  | .again _ => ⟨hseen, Nat.le_refl _⟩
  | .decided hnew _ => ⟨hseen.cons hc hnew, Nat.le_succ _⟩
  | .above hnew _ hany =>
    have hrest := hany.grows (hseen.cons hc hnew)
    ⟨hrest.listed, Nat.le_of_succ_le hrest.length_le⟩

theorem SearchedAny.grows {parents seen seen' : List ClassName} {found : Bool}
    (hseen : w.Listed seen) :
    SearchedAny w answer order parents seen found seen' → w.Grows seen seen'
  | .none => ⟨hseen, Nat.le_refl _⟩
  | .absent _ hrest => hrest.grows hseen
  | .found hd hfirst => hfirst.grows (find?_name hd) hseen
  | .failed hd hfirst hrest =>
    have hmid := hfirst.grows (find?_name hd) hseen
    have hlast := hrest.grows hmid.listed
    ⟨hlast.listed, Nat.le_trans hmid.length_le hlast.length_le⟩

end

/-- A search ends: `n` classes at most are not seen yet. -/
theorem exists_searched (answer : DeclaredClass → Option Bool)
    (order : DeclaredClass → List ClassName) {n : Nat} {seen : List ClassName}
    (hc : w.find? c.name = some c) (hseen : w.Listed seen) (hn : w.size < n + seen.length) :
    ∃ found seen', Searched w answer order c seen found seen' := by
  induction n generalizing c seen with
  | zero =>
    have hle := hseen.length_le
    omega
  | succ n ih =>
    have hany (parents : List ClassName) {seen : List ClassName} (hseen : w.Listed seen)
        (hn : w.size < n + seen.length) :
        ∃ found seen', SearchedAny w answer order parents seen found seen' := by
      induction parents generalizing seen with
      | nil => exact ⟨false, seen, .none⟩
      | cons p parents ih' =>
        cases hp : w.find? p with
        | none =>
          obtain ⟨found, seen', hrest⟩ := ih' hseen hn
          exact ⟨found, seen', .absent hp hrest⟩
        | some d =>
          obtain ⟨found, mid, hfirst⟩ := ih (find?_name hp) hseen hn
          cases found with
          | true => exact ⟨true, mid, .found hp hfirst⟩
          | false =>
            have hmid := hfirst.grows (find?_name hp) hseen
            have hle := hmid.length_le
            obtain ⟨found, seen', hrest⟩ := ih' hmid.listed (by omega)
            exact ⟨found, seen', .failed hp hfirst hrest⟩
    by_cases hnew : c.name ∈ seen
    · exact ⟨false, seen, .again hnew⟩
    · cases hanswer : answer c with
      | some found => exact ⟨found, c.name :: seen, .decided hnew hanswer⟩
      | none =>
        have hbound : w.size < n + (c.name :: seen).length := by
          rw [List.length_cons]
          omega
        obtain ⟨found, seen', hrest⟩ := hany (order c) (hseen.cons hc hnew) hbound
        exact ⟨found, seen', .above hnew hanswer hrest⟩

mutual

/-- A bound above the number of names that are not seen yet does not cut a search short. -/
theorem Searched.search_eq {n : Nat} {c : DeclaredClass} {seen seen' : List ClassName} {found : Bool}
    (hc : w.find? c.name = some c) (hseen : w.Listed seen) (hn : w.size < n + seen.length) :
    Searched w answer (·.parents) c seen found seen' → w.search answer n c seen = (found, seen')
  | .again hold => by
    cases n with
    | zero => rfl
    | succ n => rw [search, if_pos hold]
  | .decided hnew hanswer => by
    obtain ⟨n, rfl⟩ : ∃ k, n = k + 1 := Nat.exists_eq_add_one_of_ne_zero (by
      have hle := hseen.length_le
      omega)
    rw [search, if_neg hnew, hanswer]
  | .above hnew hanswer hany => by
    obtain ⟨n, rfl⟩ : ∃ k, n = k + 1 := Nat.exists_eq_add_one_of_ne_zero (by
      have hle := hseen.length_le
      omega)
    have hbound : w.size < n + (c.name :: seen).length := by
      rw [List.length_cons]
      omega
    rw [search, if_neg hnew, hanswer]
    exact hany.search_eq (hseen.cons hc hnew) hbound

theorem SearchedAny.search_eq {n : Nat} {parents seen seen' : List ClassName} {found : Bool}
    (hseen : w.Listed seen) (hn : w.size < n + seen.length) :
    SearchedAny w answer (·.parents) parents seen found seen' →
      w.searchParents (w.search answer n) parents seen = (found, seen')
  | .none => rfl
  | .absent hp hrest => by
    rw [searchParents, hp]
    exact hrest.search_eq hseen hn
  | .found hd hfirst => by
    rw [searchParents, hd]
    dsimp only
    rw [hfirst.search_eq (find?_name hd) hseen hn]
  | .failed hd hfirst hrest => by
    have hmid := hfirst.grows (find?_name hd) hseen
    have hle := hmid.length_le
    rw [searchParents, hd]
    dsimp only
    rw [hfirst.search_eq (find?_name hd) hseen hn]
    exact hrest.search_eq hmid.listed (by omega)

end

/-! ## What is found is there -/

mutual

theorem Searched.resolves (horder : ∀ c : DeclaredClass, order c ⊆ c.parents) {c : DeclaredClass}
    {seen seen' : List ClassName} {found : Bool} :
    Searched w answer order c seen found seen' → found = true → Resolves w answer c
  | .again _, hfound => nomatch hfound
  | .decided _ hanswer, hfound => .here (hfound ▸ hanswer)
  | .above _ hanswer hany, hfound =>
    have ⟨_, hparent, _, hd, hresolves⟩ := hany.resolves horder hfound
    .above hanswer (horder _ hparent) hd hresolves

theorem SearchedAny.resolves (horder : ∀ c : DeclaredClass, order c ⊆ c.parents)
    {parents seen seen' : List ClassName} {found : Bool} :
    SearchedAny w answer order parents seen found seen' → found = true →
      ∃ parent ∈ parents, ∃ d, w.find? parent = some d ∧ Resolves w answer d
  | .none, hfound => nomatch hfound
  | .absent _ hrest, hfound =>
    have ⟨parent, hparent, hresolves⟩ := hrest.resolves horder hfound
    ⟨parent, List.mem_cons_of_mem _ hparent, hresolves⟩
  | .found hd hfirst, _ => ⟨_, List.mem_cons_self, _, hd, hfirst.resolves horder rfl⟩
  | .failed _ _ hrest, hfound =>
    have ⟨parent, hparent, hresolves⟩ := hrest.resolves horder hfound
    ⟨parent, List.mem_cons_of_mem _ hparent, hresolves⟩

end

/-! ## What is there is found -/

/-- A search that failed went from one list of names seen to another: the classes seen in between
do not decide it with success, and where they do not decide it at all, their parents were seen. -/
structure Exhausts (w : World) (answer : DeclaredClass → Option Bool) (seen seen' : List ClassName) :
    Prop where
  subset : seen ⊆ seen'
  failed : ∀ name ∈ seen', name ∉ seen → ∀ c, w.find? name = some c → answer c ≠ some true
  closed : ∀ name ∈ seen', name ∉ seen → ∀ c, w.find? name = some c → answer c = none →
    ∀ parent ∈ c.parents, (w.find? parent).isSome → parent ∈ seen'

variable {seen seen' seen'' : List ClassName}

theorem Exhausts.refl (seen : List ClassName) : Exhausts w answer seen seen where
  subset := List.Subset.refl seen
  failed _ hname hnew := absurd hname hnew
  closed _ hname hnew := absurd hname hnew

theorem Exhausts.trans (h : Exhausts w answer seen seen') (h' : Exhausts w answer seen' seen'') :
    Exhausts w answer seen seen'' where
  subset := List.Subset.trans h.subset h'.subset
  failed name hname hnew := by
    by_cases hmid : name ∈ seen'
    · exact h.failed name hmid hnew
    · exact h'.failed name hname hmid
  closed name hname hnew c hc hanswer parent hparent hsupplied := by
    by_cases hmid : name ∈ seen'
    · exact h'.subset (h.closed name hmid hnew c hc hanswer parent hparent hsupplied)
    · exact h'.closed name hname hmid c hc hanswer parent hparent hsupplied

/-- A class that does not decide the search with success, after which the search went on from its
parents if it does not decide it at all. -/
theorem Exhausts.cons (hc : w.find? c.name = some c) (hanswer : answer c ≠ some true)
    (h : Exhausts w answer (c.name :: seen) seen')
    (hparents : answer c = none → ∀ parent ∈ c.parents, (w.find? parent).isSome → parent ∈ seen') :
    Exhausts w answer seen seen' where
  subset := List.Subset.trans (List.subset_cons_self ..) h.subset
  failed name hname hnew d hd := by
    by_cases hself : name = c.name
    · rw [hself, hc] at hd
      cases hd
      exact hanswer
    · exact h.failed name hname (by simp [hself, hnew]) d hd
  closed name hname hnew d hd := by
    by_cases hself : name = c.name
    · rw [hself, hc] at hd
      cases hd
      exact hparents
    · exact h.closed name hname (by simp [hself, hnew]) d hd

mutual

theorem Searched.exhausts (horder : ∀ c : DeclaredClass, c.parents ⊆ order c) {c : DeclaredClass}
    {seen seen' : List ClassName} {found : Bool} (hc : w.find? c.name = some c) :
    Searched w answer order c seen found seen' → found = false →
      Exhausts w answer seen seen' ∧ c.name ∈ seen'
  | .again hold, _ => ⟨.refl _, hold⟩
  | .decided _ hanswer, hfound =>
    ⟨.cons hc (by simp [hanswer, hfound]) (.refl _) (by simp [hanswer]), List.mem_cons_self⟩
  | .above _ hanswer hany, hfound =>
    have ⟨hrest, hparents⟩ := hany.exhausts horder hfound
    ⟨.cons hc (by simp [hanswer]) hrest fun _ parent hparent => hparents parent (horder _ hparent),
      hrest.subset List.mem_cons_self⟩

theorem SearchedAny.exhausts (horder : ∀ c : DeclaredClass, c.parents ⊆ order c)
    {parents seen seen' : List ClassName} {found : Bool} :
    SearchedAny w answer order parents seen found seen' → found = false →
      Exhausts w answer seen seen' ∧ ∀ parent ∈ parents, (w.find? parent).isSome → parent ∈ seen'
  | .none, _ => ⟨.refl _, nofun⟩
  | .absent hp hrest, hfound => by
    obtain ⟨hexhausts, hparents⟩ := hrest.exhausts horder hfound
    refine ⟨hexhausts, List.forall_mem_cons.mpr ⟨?_, hparents⟩⟩
    simp [hp]
  | .failed hd hfirst hrest, hfound => by
    obtain ⟨hbefore, hname⟩ := hfirst.exhausts horder (find?_name hd) rfl
    obtain ⟨hafter, hparents⟩ := hrest.exhausts horder hfound
    refine ⟨hbefore.trans hafter, List.forall_mem_cons.mpr ⟨fun _ => ?_, hparents⟩⟩
    rw [← name_of_find? hd]
    exact hafter.subset hname

end

/-- No class from which a search would succeed is among those that were seen in vain. -/
theorem Exhausts.name_not_mem (h : Exhausts w answer [] seen) (hresolves : Resolves w answer c)
    (hc : w.find? c.name = some c) : c.name ∉ seen := by
  induction hresolves with
  | here hanswer => exact fun hname => h.failed _ hname List.not_mem_nil _ hc hanswer
  | above hanswer hparent hd _ ih =>
    intro hname
    obtain rfl := name_of_find? hd
    exact ih hd (h.closed _ hname List.not_mem_nil _ hc hanswer _ hparent (by simp [hd]))

/-- Whatever the order of parents, a search from a class of the world succeeds exactly if it is
decided with success there or above. -/
theorem Searched.found_iff (horder : ∀ c : DeclaredClass, (order c).Perm c.parents)
    (hc : w.find? c.name = some c) {found : Bool} (h : Searched w answer order c [] found seen) :
    found = true ↔ Resolves w answer c := by
  refine ⟨h.resolves fun c => (horder c).subset, fun hresolves => ?_⟩
  cases found with
  | true => rfl
  | false =>
    obtain ⟨hexhausts, hname⟩ := h.exhausts (fun c => (horder c).symm.subset) hc rfl
    exact absurd hname (hexhausts.name_not_mem hresolves hc)

end Runs

/-- A search from a class of the world succeeds exactly if it is decided with success there or
above. -/
theorem resolves_iff (hc : w.find? c.name = some c) :
    w.resolves answer c = true ↔ Resolves w answer c := by
  obtain ⟨found, seen, h⟩ := exists_searched answer (·.parents) (n := w.size + 1) hc listed_nil
    (by simp)
  rw [resolves, h.search_eq hc listed_nil (by simp)]
  exact h.found_iff (fun _ => .refl _) hc

end JvmLinkage.World
