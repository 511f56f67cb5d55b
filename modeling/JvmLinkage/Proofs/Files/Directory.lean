import JvmLinkage.Proofs.Files.Tree
import Mathlib.Data.List.Nodup

/-!
# The files below a directory

A path that is joined to that of a directory is written in its shortest form first. In this form it
still leads where the directory and the names below it lead, so every file that a walk comes across
is read by the path under which the walk mentions it.
-/

namespace JvmLinkage

/-! ## Shortest forms -/

namespace Path

theorem root_eq : root = [Ascii.slash] := by decide

instance (name : Text) : Decidable (Proper name) :=
  decidable_of_iff (name ≠ [] ∧ name ≠ here ∧ name ≠ above ∧ Ascii.slash ∉ name)
    ⟨fun ⟨hnil, hhere, habove, hslash⟩ => ⟨hnil, hhere, habove, hslash⟩,
      fun h => ⟨h.ne_nil, h.ne_here, h.ne_above, h.not_mem⟩⟩

variable {rooted : Bool} {taken : List Text} {name next : Text}

theorem of_mem_step (h : name ∈ step rooted taken next) :
    name ∈ taken ∨ name = next ∧ name ≠ [] ∧ name ≠ here := by
  unfold step at h
  split at h
  · exact .inl h
  · rename_i hnext
    have hself : next ≠ [] ∧ next ≠ here := by simpa using hnext
    split at h
    · rename_i habove
      split at h
      · split at h
        · exact .inl h
        · obtain rfl := List.mem_singleton.mp h
          exact .inr ⟨habove.symm, by decide, by decide⟩
      · split at h
        · rcases List.mem_cons.mp h with rfl | h
          · exact .inr ⟨habove.symm, by decide, by decide⟩
          · exact .inl h
        · exact .inl (List.mem_cons_of_mem _ h)
    · rcases List.mem_cons.mp h with rfl | h
      · exact .inr ⟨rfl, hself⟩
      · exact .inl h

theorem of_mem_foldl_step {names : List Text} (h : name ∈ names.foldl (step rooted) taken) :
    name ∈ taken ∨ name ∈ names ∧ name ≠ [] ∧ name ≠ here := by
  induction names generalizing taken with
  | nil => exact .inl h
  | cons next names ih =>
    rcases ih h with hold | ⟨hnames, hself⟩
    · rcases of_mem_step hold with hold | ⟨rfl, hself⟩
      · exact .inl hold
      · exact .inr ⟨List.mem_cons_self .., hself⟩
    · exact .inr ⟨List.mem_cons_of_mem next hnames, hself⟩

theorem foldl_step_of_proper {names : List Text} (h : ∀ name ∈ names, Proper name) :
    names.foldl (step rooted) taken = names.reverse ++ taken := by
  induction names generalizing taken with
  | nil => rfl
  | cons name names ih =>
    rw [List.foldl_cons, step_of_proper (h name (List.mem_cons_self ..)),
      ih fun name hname => h name (List.mem_cons_of_mem _ hname), List.reverse_cons,
      List.append_assoc, List.singleton_append]

/-- The names that are kept of a path. -/
def kept (p : Path) : List Text := ((names p).foldl (step (isAbsolute p)) []).reverse

/-- The path of names, from the root on or not. -/
def spelled (rooted : Bool) (names : List Text) : Path :=
  if rooted then Ascii.slash :: Text.join root names else Text.join root names

theorem of_mem_kept {p : Path} (h : name ∈ kept p) :
    name ≠ [] ∧ Ascii.slash ∉ name ∧ name ⊆ p := by
  rcases of_mem_foldl_step (List.mem_reverse.mp h) with hnil | ⟨hname, hne, -⟩
  · exact absurd hnil List.not_mem_nil
  · exact ⟨hne, Text.of_mem_splitOn hname⟩

theorem join_eq_spelled {p : Path} {names : List Text} (hp : p ≠ []) (hne : names ≠ [])
    (hproper : ∀ name ∈ names, Proper name) :
    join [p, Text.join root names] = spelled (isAbsolute p) (kept p ++ names) := by
  have hparts : [p, Text.join root names].dropWhile List.isEmpty = [p, Text.join root names] :=
    List.dropWhile_cons_of_neg (by simpa using hp)
  have htext : Text.join root [p, Text.join root names] =
      p ++ Ascii.slash :: Text.join root names := by
    simp [Text.join, List.intercalate, List.intersperse, root_eq]
  have habsolute : isAbsolute (p ++ Ascii.slash :: Text.join root names) = isAbsolute p := by
    cases p with
    | nil => contradiction
    | cons b p => rfl
  have hnames : Path.names (p ++ Ascii.slash :: Text.join root names) = Path.names p ++ names := by
    rw [Path.names, Text.splitOn_append_cons, root_eq,
      Text.splitOn_join hne fun name hname => (hproper name hname).not_mem, Path.names]
  have hkept : kept (p ++ Ascii.slash :: Text.join root names) = kept p ++ names := by
    rw [kept, habsolute, hnames, List.foldl_append, foldl_step_of_proper hproper,
      List.reverse_append, List.reverse_reverse, kept]
  have hsome : (kept p ++ names).isEmpty = false := by simp [hne]
  rw [join, hparts]
  simp only [htext]
  rw [clean, ← kept, hkept, habsolute, hsome]
  rfl

end Path

namespace FileTree

variable {t : FileTree} {start l place : Location} {p : Path} {names : List Text}

/-- The names lead from one location to another. -/
def Leads (t : FileTree) (start : Location) (names : List Text) (place : Location) : Prop :=
  names.foldlM t.follow start = .ok place

theorem leads_append {first second : List Text} : t.Leads start (first ++ second) place ↔
    ∃ mid, t.Leads start first mid ∧ t.Leads mid second place := by
  unfold Leads
  rw [List.foldlM_append]
  cases first.foldlM t.follow start with
  | error reason => simp [bind, Except.bind]
  | ok mid => simp [bind, Except.bind]

theorem leads_nil : t.Leads l [] l := rfl

theorem leads_singleton {name : Text} :
    t.Leads start [name] place ↔ t.follow start name = .ok place := by
  unfold Leads
  simp

theorem locate_eq_ok_iff : t.locate p = .ok l ↔ p ≠ [] ∧ 0 ∉ p ∧
    t.Leads (if Path.isAbsolute p then [] else t.workingDirectory) (Path.names p) l := by
  unfold locate Leads
  cases p with
  | nil => simp
  | cons b p =>
    by_cases hzero : (0 : UInt8) ∈ b :: p
    · simp [hzero]
    · simp [hzero]

/-- Dropping a name together with the way up that follows it makes no difference, because a name leads
to a place directly below. -/
theorem leads_step {rooted : Bool} {taken : List Text} {name : Text} {next : Location}
    (hrooted : rooted = true → start = []) (htaken : ∀ name ∈ taken, name ≠ [] ∧ name ≠ Path.here)
    (h : t.Leads start taken.reverse l) (hnext : t.follow l name = .ok next) :
    t.Leads start (Path.step rooted taken name).reverse next := by
  have hmore : t.Leads start (name :: taken).reverse next := by
    rw [List.reverse_cons]
    exact leads_append.mpr ⟨l, h, leads_singleton.mpr hnext⟩
  have htowards := (of_follow hnext).2
  unfold Path.step
  split
  · rename_i hstays
    simp only [towards, hstays, if_true] at htowards
    rwa [← htowards]
  · rename_i hgoes
    split
    · rename_i habove
      subst habove
      have hdrop : next = l.dropLast := by
        rw [← htowards]
        simp [towards, show Path.above.isEmpty = false from rfl,
          show Path.above ≠ Path.here by decide]
      cases taken with
      | nil =>
        dsimp only
        split
        · rename_i hroot
          obtain rfl : start = l := Except.ok.inj h
          rw [hdrop, hrooted hroot]
          rfl
        · exact hmore
      | cons last rest =>
        dsimp only
        split
        · exact hmore
        · rename_i hlast
          rw [List.reverse_cons] at h
          obtain ⟨mid, hmid, hstep⟩ := leads_append.mp h
          have hplace := (of_follow (leads_singleton.mp hstep)).2
          obtain ⟨hne, hhere⟩ := htaken last (List.mem_cons_self ..)
          rw [hdrop, ← hplace]
          simpa [towards, hne, hhere, hlast] using hmid
    · exact hmore

/-- The names that are kept lead where all names lead. -/
theorem leads_foldl_step {rooted : Bool} {taken : List Text} (hrooted : rooted = true → start = [])
    (htaken : ∀ name ∈ taken, name ≠ [] ∧ name ≠ Path.here) (h : t.Leads start taken.reverse l)
    (hnames : t.Leads l names place) :
    t.Leads start (names.foldl (Path.step rooted) taken).reverse place := by
  induction names generalizing taken l with
  | nil =>
    obtain rfl : l = place := Except.ok.inj hnames
    exact h
  | cons name names ih =>
    rw [← List.singleton_append] at hnames
    obtain ⟨next, hnext, hrest⟩ := leads_append.mp hnames
    refine ih ?_ (leads_step hrooted htaken h (leads_singleton.mp hnext)) hrest
    intro other hother
    rcases Path.of_mem_step hother with hold | ⟨-, hself⟩
    · exact htaken other hold
    · exact hself

/-! ## Well-formed trees -/

/-- A tree as it stands on a disk: a location has one node, the names that lead there are names that
a directory can take, and every location on the way is that of a directory. -/
structure WellFormed (t : FileTree) : Prop where
  distinct : (t.nodes.map (·.1)).Nodup
  named : ∀ entry ∈ t.nodes, ∀ name ∈ entry.1,
    Path.Proper name ∧ 0 ∉ name ∧ name.length ≤ longestName
  inside : ∀ entry ∈ t.nodes, ∀ i < entry.1.length, t.node? (entry.1.take i) = some .directory

variable {node : FileNode} {content : Bytes}

theorem WellFormed.node?_eq (h : t.WellFormed) (hmem : (place, node) ∈ t.nodes) (hne : place ≠ []) :
    t.node? place = some node := by
  have hlookup : ∀ nodes : List (Location × FileNode), (nodes.map (·.1)).Nodup →
      (place, node) ∈ nodes → nodes.lookup place = some node := by
    intro nodes
    induction nodes with
    | nil => simp
    | cons entry nodes ih =>
      intro hdistinct hmem
      obtain ⟨hnew, hdistinct⟩ := List.nodup_cons.mp hdistinct
      rw [List.lookup_cons]
      rcases List.mem_cons.mp hmem with rfl | hmem
      · simp
      · have hkey : (place == entry.1) = false := by
          rw [beq_eq_false_iff_ne]
          intro heq
          exact hnew (List.mem_map.mpr ⟨_, hmem, heq⟩)
        rw [hkey]
        exact ih hdistinct hmem
  simpa [node?, hne] using hlookup t.nodes h.distinct hmem

/-- The names below a location lead to the node that stands there. -/
theorem WellFormed.leads (h : t.WellFormed) (hmem : (l ++ names, node) ∈ t.nodes) :
    t.Leads l names (l ++ names) := by
  have hpart : ∀ i ≤ names.length, t.Leads l (names.take i) (l ++ names.take i) := by
    intro i
    induction i with
    | zero => simpa using leads_nil
    | succ i ih =>
      intro hi
      obtain ⟨name, hname⟩ : ∃ name, names[i]? = some name := by
        simp only [List.getElem?_eq_getElem (show i < names.length by omega)]
        exact ⟨_, rfl⟩
      have hdirectory := h.inside _ hmem (l.length + i) (by rw [List.length_append]; omega)
      rw [List.take_length_add_append] at hdirectory
      have hmember : name ∈ l ++ names :=
        List.mem_append_right l (List.mem_of_getElem? hname)
      obtain ⟨hproper, -, hlength⟩ := h.named _ hmem name hmember
      rw [List.take_add_one, hname, Option.toList_some, ← List.append_assoc]
      refine leads_append.mpr ⟨_, ih (by omega), leads_singleton.mpr ?_⟩
      simp [follow, hdirectory, hproper.ne_nil, hproper.ne_here, hproper.ne_above,
        Nat.not_lt.mpr hlength]
  simpa using hpart names.length (Nat.le_refl _)

/-! ## Joined paths -/

theorem locate_spelled {rooted : Bool} (hne : names ≠ [])
    (hnames : ∀ name ∈ names, name ≠ [] ∧ Ascii.slash ∉ name ∧ 0 ∉ name)
    (h : t.Leads (if rooted then [] else t.workingDirectory) names place) :
    t.locate (Path.spelled rooted names) = .ok place := by
  have hsplit : Path.names (Text.join Path.root names) = names := by
    rw [Path.names, Path.root_eq, Text.splitOn_join hne fun name hname => (hnames name hname).2.1]
  have hzero : 0 ∉ Text.join Path.root names := by
    rw [Path.root_eq]
    exact Text.not_mem_join (by decide) fun name hname => (hnames name hname).2.2
  rw [locate_eq_ok_iff]
  cases rooted with
  | true =>
    have hroot : t.follow [] [] = .ok [] := by simp [follow, node?]
    have habsolute : Path.names (Ascii.slash :: Text.join Path.root names) = [[]] ++ names :=
      (Text.splitOn_append_cons Ascii.slash [] _).trans (congrArg ([[]] ++ ·) hsplit)
    refine ⟨by simp [Path.spelled], by simpa [Path.spelled] using ⟨by decide, hzero⟩, ?_⟩
    simp only [Path.spelled, if_true, Path.isAbsolute, List.head?_cons, decide_true]
    rw [habsolute]
    exact leads_append.mpr ⟨[], leads_singleton.mpr hroot, h⟩
  | false =>
    -- The first name is not empty, so the path does not start with a slash.
    obtain ⟨first, rest, rfl⟩ := List.exists_cons_of_ne_nil hne
    obtain ⟨hfirst, hslash, -⟩ := hnames first (List.mem_cons_self ..)
    obtain ⟨b, tail, rfl⟩ := List.exists_cons_of_ne_nil hfirst
    obtain ⟨more, hmore⟩ : ∃ more, Text.join Path.root ((b :: tail) :: rest) = b :: more := by
      cases rest with
      | nil => exact ⟨tail, by simp [Text.join, List.intercalate]⟩
      | cons second rest => exact ⟨_, by rw [Text.join_cons_cons]; rfl⟩
    have hb : b ≠ Ascii.slash := fun heq => hslash (by simp [heq])
    simp only [Path.spelled, Bool.false_eq_true, if_false]
    refine ⟨by simp [hmore], hzero, ?_⟩
    rw [hsplit, hmore]
    simpa [Path.isAbsolute, hb] using h

/-- A path of proper names that is joined to another one leads on from where that one leads. -/
theorem locate_join (hlocate : t.locate p = .ok l) (hne : names ≠ [])
    (hproper : ∀ name ∈ names, Path.Proper name) (hzero : ∀ name ∈ names, 0 ∉ name)
    (h : t.Leads l names place) : t.locate (Path.join [p, Text.join Path.root names]) = .ok place := by
  obtain ⟨hp, hpzero, hleads⟩ := locate_eq_ok_iff.mp hlocate
  rw [Path.join_eq_spelled hp hne hproper]
  refine locate_spelled (by simp [hne]) ?_ ?_
  · intro name hname
    rcases List.mem_append.mp hname with hname | hname
    · obtain ⟨hself, hslash, hsub⟩ := Path.of_mem_kept hname
      exact ⟨hself, hslash, fun hmem => hpzero (hsub hmem)⟩
    · exact ⟨(hproper name hname).ne_nil, (hproper name hname).not_mem, hzero name hname⟩
  · refine leads_append.mpr ⟨l, leads_foldl_step ?_ (by simp) leads_nil hleads, h⟩
    intro hrooted
    rw [if_pos hrooted]

/-! ## Walks -/

/-- The files below a location, by the names that lead there from it. -/
def filesBelow (t : FileTree) (l : Location) : List (Location × Bytes) :=
  t.nodes.filterMap fun (place, n) =>
    match n with
    | .file content =>
      if l.isPrefixOf place && l.length < place.length then some (place.drop l.length, content)
      else none
    | .directory => none

theorem mem_filesBelow : (names, content) ∈ t.filesBelow l ↔
    names ≠ [] ∧ (l ++ names, .file content) ∈ t.nodes := by
  rw [filesBelow, List.mem_filterMap]
  constructor
  · rintro ⟨⟨place, n⟩, hmem, hentry⟩
    cases n with
    | directory => contradiction
    | file held =>
      dsimp only at hentry
      split at hentry
      · rename_i hbelow
        cases hentry
        simp only [Bool.and_eq_true, List.isPrefixOf_iff_prefix, decide_eq_true_eq] at hbelow
        obtain ⟨⟨rest, rfl⟩, hlength⟩ := hbelow
        rw [List.drop_left]
        refine ⟨?_, hmem⟩
        rintro rfl
        simp at hlength
      · contradiction
  · rintro ⟨hne, hmem⟩
    refine ⟨_, hmem, ?_⟩
    have hlength : 0 < names.length := List.length_pos_iff.mpr hne
    simp [hlength]

theorem locate_of_directoryAt (h : t.directoryAt p = .ok l) : t.locate p = .ok l := by
  unfold directoryAt at h
  cases hlocate : t.locate p with
  | error reason => simp [hlocate, bind, Except.bind] at h
  | ok place =>
    cases hnode : t.node? place with
    | none => simp [hlocate, hnode, bind, Except.bind] at h
    | some n => cases n <;> simp_all [bind, Except.bind]

/-- A walk comes across the files below the directory, each once. -/
theorem walk_perm (h : t.directoryAt p = .ok l) : ∃ paths, t.walk p = .ok paths ∧
    paths.Perm ((t.filesBelow l).map fun entry => Text.join Path.root entry.1) := by
  refine ⟨_, by rw [walk, h]; rfl, ?_⟩
  refine ((List.mergeSort_perm ..).filterMap _).trans ?_
  rw [filesBelow, List.filterMap_filterMap, List.map_filterMap]
  refine .of_eq (List.filterMap_congr ?_)
  rintro ⟨place, n⟩ -
  cases n with
  | directory => by_cases hbelow : l.isPrefixOf place && l.length < place.length <;> simp [hbelow]
  | file content => by_cases hbelow : l.isPrefixOf place && l.length < place.length <;> simp [hbelow]

theorem WellFormed.read_join (h : t.WellFormed) (hdirectory : t.directoryAt p = .ok l)
    (hmem : (names, content) ∈ t.filesBelow l) :
    t.read (Path.join [p, Text.join Path.root names]) = .ok content := by
  obtain ⟨hne, hnode⟩ := mem_filesBelow.mp hmem
  have hnames {name : Text} (hname : name ∈ names) := h.named _ hnode name (List.mem_append_right l hname)
  refine read_eq_ok_iff.mpr ⟨l ++ names, ?_, h.node?_eq hnode (by simp [hne])⟩
  exact locate_join (locate_of_directoryAt hdirectory) hne (fun _ hname => (hnames hname).1)
    (fun _ hname => (hnames hname).2.1) (h.leads hnode)

end FileTree

end JvmLinkage
