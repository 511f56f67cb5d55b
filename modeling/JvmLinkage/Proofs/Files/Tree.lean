import JvmLinkage.Files.Tree
import JvmLinkage.Proofs.Text.Parts

/-!
# Reading and writing in file trees

Where a path leads is told by its names alone; whether it leads there depends on the directories on
the way. A file that was written is read back, and neither writing nor making directories changes any
other file.
-/

namespace JvmLinkage

/-! ## Names of paths -/

namespace Path

/-- A name that leads into a directory. -/
structure Proper (name : Text) : Prop where
  ne_nil : name ≠ []
  ne_here : name ≠ here
  ne_above : name ≠ above
  not_mem : Ascii.slash ∉ name

variable {name : Text}

theorem names_append (h : Ascii.slash ∉ name) (front : Path) :
    names (front ++ Ascii.slash :: name) = names front ++ [name] :=
  Text.splitOn_append h front

theorem step_of_proper (h : Proper name) (rooted : Bool) (taken : List Text) :
    step rooted taken name = name :: taken := by
  simp [step, h.ne_nil, h.ne_here, h.ne_above]

/-- The shortest form of a path ends with the last name of the path. -/
theorem exists_names_clean (h : Proper name) (front : Path) :
    ∃ first, names (clean (front ++ Ascii.slash :: name)) = first ++ [name] := by
  generalize hrooted : isAbsolute (front ++ Ascii.slash :: name) = rooted
  generalize hkept : ((names front).foldl (step rooted) []).reverse = kept
  have hall : ((names (front ++ Ascii.slash :: name)).foldl (step rooted) []).reverse =
      kept ++ [name] := by
    rw [names_append h.not_mem, List.foldl_append, List.foldl_cons, List.foldl_nil,
      step_of_proper h, List.reverse_cons, hkept]
  have hroot : root = [Ascii.slash] := by decide
  have hclean : clean (front ++ Ascii.slash :: name) =
      if rooted then Ascii.slash :: Text.join root (kept ++ [name])
      else Text.join root (kept ++ [name]) := by
    simp [clean, hrooted, hall]
  rw [hclean]
  cases kept with
  | nil =>
    have hjoin : Text.join root ([] ++ [name]) = name := by simp [Text.join]
    rw [hjoin]
    split
    · exact ⟨names [], names_append h.not_mem []⟩
    · exact ⟨[], Text.splitOn_of_not_mem h.not_mem⟩
  | cons part parts =>
    rw [Text.join_append_singleton _ _ (by simp), hroot, List.append_assoc, List.singleton_append]
    split
    · exact ⟨_, names_append h.not_mem (Ascii.slash :: _)⟩
    · exact ⟨_, names_append h.not_mem _⟩

end Path

/-! ## Where paths lead -/

namespace FileTree

variable {t t' : FileTree} {l place : Location} {p : Path} {content : Bytes}

/-- The location that a name leads to, whatever stands there. -/
def towards (l : Location) (name : Text) : Location :=
  if name.isEmpty || name = Path.here then l
  else if name = Path.above then l.dropLast
  else l ++ [name]

/-- The location that a path leads to, whatever stands on the way. -/
def placeOf (t : FileTree) (p : Path) : Location :=
  (Path.names p).foldl towards (if Path.isAbsolute p then [] else t.workingDirectory)

/-- The content of the file at a location. -/
def file? (t : FileTree) (l : Location) : Option Bytes :=
  match t.node? l with
  | some (.file content) => some content
  | _ => none

theorem file?_eq_some_iff : t.file? l = some content ↔ t.node? l = some (.file content) := by
  unfold file?
  split <;> simp_all

theorem of_follow {name : Text} (h : t.follow l name = .ok place) :
    t.node? l = some .directory ∧ towards l name = place := by
  unfold follow at h
  split at h
  · contradiction
  · contradiction
  · rename_i hdirectory
    refine ⟨hdirectory, ?_⟩
    unfold towards
    split at h
    · simp_all
    · split at h
      · simp_all
      · split at h
        · contradiction
        · simp_all

theorem placeOf_of_locate (h : t.locate p = .ok l) : t.placeOf p = l := by
  have key : ∀ (names : List Text) (start : Location),
      names.foldlM t.follow start = .ok l → names.foldl towards start = l := by
    intro names
    induction names with
    | nil =>
      intro start hstart
      exact Except.ok.inj hstart
    | cons name names ih =>
      intro start hstart
      rw [List.foldlM_cons] at hstart
      cases hfollow : t.follow start name with
      | error e =>
        rw [hfollow] at hstart
        contradiction
      | ok next =>
        rw [hfollow] at hstart
        rw [List.foldl_cons, (of_follow hfollow).2]
        exact ih next hstart
  unfold locate at h
  split at h
  · contradiction
  · split at h
    · contradiction
    · exact key _ _ h

theorem placeOf_of_workingDirectory (h : t'.workingDirectory = t.workingDirectory) (p : Path) :
    t'.placeOf p = t.placeOf p := by
  unfold placeOf
  rw [h]

/-- A path that ends with a proper name leads to a location that ends with it. -/
theorem getLast?_placeOf {name : Text} (h : Path.Proper name) {first : List Text}
    (hnames : Path.names p = first ++ [name]) : (t.placeOf p).getLast? = some name := by
  have hstep (l : Location) : towards l name = l ++ [name] := by
    simp [towards, h.ne_nil, h.ne_here, h.ne_above]
  simp [placeOf, hnames, List.foldl_append, hstep]

/-! ## Nodes -/

theorem node?_put_self (n : FileNode) (h : l ≠ []) : (t.put l n).node? l = some n := by
  simp [node?, put, h]

theorem node?_put_of_ne (n : FileNode) (h : place ≠ l) :
    (t.put l n).node? place = t.node? place := by
  unfold node?
  split
  · rfl
  · have hne : (place == l) = false := by simpa using h
    have hfilter : ∀ nodes : List (Location × FileNode),
        (nodes.filter fun entry => entry.1 ≠ l).lookup place = nodes.lookup place := by
      intro nodes
      induction nodes with
      | nil => rfl
      | cons entry nodes ih =>
        by_cases hentry : entry.1 = l
        · have hkey : (place == entry.1) = false := by simpa [hentry] using h
          rw [List.filter_cons_of_neg (by simp [hentry]), ih, List.lookup_cons, hkey]
        · rw [List.filter_cons_of_pos (by simp [hentry]), List.lookup_cons, List.lookup_cons, ih]
    rw [put, List.lookup_cons, hne]
    exact hfilter t.nodes

/-- Something put where no directory was is in nobody's way. -/
theorem locate_put (n : FileNode) (hplace : t.node? place ≠ some .directory)
    (h : t.locate p = .ok l) : (t.put place n).locate p = .ok l := by
  have hfollow (start next : Location) (name : Text) (hnext : t.follow start name = .ok next) :
      (t.put place n).follow start name = .ok next := by
    have hdirectory := (of_follow hnext).1
    have hne : start ≠ place := by
      rintro rfl
      exact hplace hdirectory
    rw [← hnext]
    unfold follow
    rw [node?_put_of_ne n hne]
  have key : ∀ (names : List Text) (start : Location), names.foldlM t.follow start = .ok l →
      names.foldlM (t.put place n).follow start = .ok l := by
    intro names
    induction names with
    | nil => exact fun start hstart => hstart
    | cons name names ih =>
      intro start hstart
      rw [List.foldlM_cons] at hstart ⊢
      cases hnext : t.follow start name with
      | error e =>
        rw [hnext] at hstart
        contradiction
      | ok next =>
        rw [hnext] at hstart
        rw [hfollow start next name hnext]
        exact ih next hstart
  unfold locate at h ⊢
  split at h
  · contradiction
  · split at h
    · contradiction
    · simp_all [put]

/-! ## Reading and writing -/

@[simp] theorem failing_ok {α : Type} (operation : FileOperation) (p : Path) (a : α) :
    failing operation p (.ok a) = .ok a := rfl

@[simp] theorem failing_error {α : Type} (operation : FileOperation) (p : Path) (reason : FileReason) :
    failing operation p (.error reason : Except FileReason α) = .error ⟨operation, p, reason⟩ := rfl

theorem read_eq_ok_iff :
    t.read p = .ok content ↔ ∃ l, t.locate p = .ok l ∧ t.node? l = some (.file content) := by
  unfold read find
  cases t.locate p with
  | error e => simp [bind, Except.bind]
  | ok l =>
    cases hnode : t.node? l with
    | none => simp [bind, Except.bind, hnode]
    | some n => cases n <;> simp [bind, Except.bind, hnode]

theorem file?_of_read (h : t.read p = .ok content) : t.file? (t.placeOf p) = some content := by
  obtain ⟨l, hlocate, hnode⟩ := read_eq_ok_iff.mp h
  rw [placeOf_of_locate hlocate, file?_eq_some_iff, hnode]

theorem of_write (h : t.write p content = .ok t') :
    ∃ l, t.locate p = .ok l ∧ t.node? l ≠ some .directory ∧ t' = t.put l (.file content) := by
  unfold write at h
  cases hlocate : t.locate p with
  | error e => simp [hlocate, bind, Except.bind] at h
  | ok l =>
    by_cases hnode : t.node? l = some .directory
    · simp [hlocate, hnode, bind, Except.bind] at h
    · refine ⟨l, rfl, hnode, ?_⟩
      simpa [hlocate, hnode, bind, Except.bind] using h.symm

/-- What was written is read. -/
theorem read_of_write (h : t.write p content = .ok t') : t'.read p = .ok content := by
  obtain ⟨l, hlocate, hnode, rfl⟩ := of_write h
  have hne : l ≠ [] := by
    rintro rfl
    exact hnode rfl
  exact read_eq_ok_iff.mpr ⟨l, locate_put _ hnode hlocate, node?_put_self _ hne⟩

/-! ## What stays -/

/-- The trees have the same files and are seen from the same directory. -/
structure SameFiles (t t' : FileTree) : Prop where
  workingDirectory_eq : t'.workingDirectory = t.workingDirectory
  file?_eq : ∀ l, t'.file? l = t.file? l

theorem SameFiles.refl (t : FileTree) : SameFiles t t := ⟨rfl, fun _ => rfl⟩

theorem SameFiles.trans {t'' : FileTree} (h : SameFiles t t') (h' : SameFiles t' t'') :
    SameFiles t t'' :=
  ⟨h'.workingDirectory_eq.trans h.workingDirectory_eq,
    fun l => (h'.file?_eq l).trans (h.file?_eq l)⟩

theorem file?_put_of_ne (n : FileNode) (h : place ≠ l) :
    (t.put l n).file? place = t.file? place := by
  unfold file?
  rw [node?_put_of_ne n h]

theorem sameFiles_of_makeDirectory (h : t.makeDirectory p = .ok t') : SameFiles t t' := by
  unfold makeDirectory at h
  cases hlocate : t.locate p with
  | error e => simp [hlocate, bind, Except.bind] at h
  | ok l =>
    cases hnode : t.node? l with
    | none =>
      have hput : t' = t.put l .directory := by
        simpa [hlocate, hnode, bind, Except.bind] using h.symm
      have hne : l ≠ [] := by
        rintro rfl
        simp [node?] at hnode
      refine ⟨hput ▸ rfl, fun place => ?_⟩
      by_cases hplace : place = l
      · subst hplace
        rw [hput]
        simp [file?, node?_put_self _ hne, hnode]
      · rw [hput, file?_put_of_ne _ hplace]
    | some n =>
      cases n with
      | file c => simp [hlocate, hnode, bind, Except.bind] at h
      | directory =>
        have hsame : t' = t := by
          simpa [hlocate, hnode, bind, Except.bind] using h.symm
        exact hsame ▸ .refl t

theorem sameFiles_of_makeStage (h : t.makeStage p = .ok t') : SameFiles t t' := by
  unfold makeStage at h
  split at h
  · exact Except.ok.inj h ▸ .refl t
  · contradiction
  · exact sameFiles_of_makeDirectory h

/-- Making directories changes no file. -/
theorem sameFiles_of_makeDirectories (h : t.makeDirectories p = .ok t') : SameFiles t t' := by
  have key : ∀ (paths : List Path) (t : FileTree),
      paths.foldlM makeStage t = .ok t' → SameFiles t t' := by
    intro paths
    induction paths with
    | nil =>
      intro t ht
      exact Except.ok.inj ht ▸ .refl t
    | cons first paths ih =>
      intro t ht
      rw [List.foldlM_cons] at ht
      cases hstage : t.makeStage first with
      | error e =>
        rw [hstage] at ht
        contradiction
      | ok mid =>
        rw [hstage] at ht
        exact (sameFiles_of_makeStage hstage).trans (ih mid ht)
  unfold makeDirectories at h
  split at h
  · exact Except.ok.inj h ▸ .refl t
  · split at h
    · exact sameFiles_of_makeDirectory h
    · exact key _ t h

/-- The changed tree is seen from the same directory, and its files are those of the tree but for one
with the given content at the given place. -/
structure Adds (t : FileTree) (place : Location) (content : Bytes) (t' : FileTree) : Prop where
  workingDirectory_eq : t'.workingDirectory = t.workingDirectory
  file?_or : ∀ l c, t'.file? l = some c → t.file? l = some c ∨ l = place ∧ c = content

theorem SameFiles.adds (h : SameFiles t t') (place : Location) (content : Bytes) :
    Adds t place content t' :=
  ⟨h.workingDirectory_eq, fun l _ hl => .inl ((h.file?_eq l).symm.trans hl)⟩

theorem Adds.of_sameFiles {t'' : FileTree} (h : SameFiles t t') (h' : Adds t' place content t'') :
    Adds t place content t'' :=
  ⟨h'.workingDirectory_eq.trans h.workingDirectory_eq,
    fun l c hl => (h'.file?_or l c hl).imp_left fun hc => (h.file?_eq l).symm.trans hc⟩

theorem adds_of_write (h : t.write p content = .ok t') : Adds t (t.placeOf p) content t' := by
  obtain ⟨l, hlocate, -, rfl⟩ := of_write h
  refine ⟨rfl, fun place c hc => ?_⟩
  rw [placeOf_of_locate hlocate]
  by_cases hplace : place = l
  · subst hplace
    have hne : place ≠ [] := by
      rintro rfl
      simp [file?, node?] at hc
    rw [file?_eq_some_iff, node?_put_self _ hne] at hc
    cases hc
    exact .inr ⟨rfl, rfl⟩
  · rw [file?_put_of_ne _ hplace] at hc
    exact .inl hc

end FileTree

theorem InTree.run_change (f : FileTree → Except FileFailure FileTree) (t : FileTree) :
    (InTree.change f).run t =
      match f t with
      | .error failure => (.error failure, t)
      | .ok changed => (.ok (), changed) := by
  simp only [InTree.change, StateT.run_bind, StateT.run_get]
  cases hchange : f t with
  | error failure =>
    simp only [pure_bind, hchange]
    rfl
  | ok changed =>
    simp only [pure_bind, hchange]
    rfl

end JvmLinkage
