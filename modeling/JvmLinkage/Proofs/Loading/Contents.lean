import JvmLinkage.Proofs.Archive.Packing
import JvmLinkage.Proofs.Cache.Transparency
import JvmLinkage.Proofs.Files.Directory
import JvmLinkage.Proofs.Loading.Selection

/-!
# What loading comes to

Loading reads the same files from an archive or from a directory. Whether it succeeds, and with which
classes, is a function of the paths and the contents of these files, in which their order plays no
part.
-/

namespace JvmLinkage

/-! ## Outcomes -/

theorem toOption_mapError {ε δ α : Type} (f : ε → δ) (r : Except ε α) :
    (r.mapError f).toOption = r.toOption := by
  cases r <;> rfl

/-- The computation always gives the value, or always fails if there is none. -/
def ComesTo {m : Type → Type} [Monad m] [Determined m] {ε α : Type} (x : ExceptT ε m α)
    (o : Option α) : Prop :=
  ∃ r, Yields x r ∧ r.toOption = o

namespace ComesTo

variable {m : Type → Type} [Monad m] [Determined m] {ε δ α β : Type}

protected theorem pure (a : α) : ComesTo (pure a : ExceptT ε m α) (some a) := ⟨_, .pure a, rfl⟩

theorem of_eq {x : ExceptT ε m α} {o o' : Option α} (hx : ComesTo x o) (h : o = o') :
    ComesTo x o' := h ▸ hx

theorem mk_pure (r : Except ε α) : ComesTo (ExceptT.mk (pure r : m _)) r.toOption :=
  ⟨r, Determined.gives_pure r, rfl⟩

protected theorem bind {x : ExceptT ε m α} {f : α → ExceptT ε m β} {o : Option α}
    {g : α → Option β} (hx : ComesTo x o) (hf : ∀ a, ComesTo (f a) (g a)) :
    ComesTo (x >>= f) (o.bind g) := by
  obtain ⟨r, hr, rfl⟩ := hx
  cases r with
  | error e => exact ⟨.error e, hr.bind (g := fun _ => .error e) nofun, rfl⟩
  | ok a =>
    obtain ⟨s, hs, hg⟩ := hf a
    exact ⟨s, hr.bind_ok hs, hg⟩

/-- The computation goes on with the value that was given. -/
theorem bind_some {x : ExceptT ε m α} {f : α → ExceptT ε m β} {a : α} {o : Option β}
    (hx : ComesTo x (some a)) (hf : ComesTo (f a) o) : ComesTo (x >>= f) o := by
  obtain ⟨r, hr, hra⟩ := hx
  obtain ⟨s, hs, rfl⟩ := hf
  cases r with
  | error e => cases hra
  | ok b =>
    cases hra
    exact ⟨s, hr.bind_ok hs, rfl⟩

protected theorem adapt {x : ExceptT ε m α} {o : Option α} (f : ε → δ) (hx : ComesTo x o) :
    ComesTo (ExceptT.adapt f x) o := by
  obtain ⟨r, hr, rfl⟩ := hx
  exact ⟨r.mapError f, hr.adapt f, toOption_mapError f r⟩

protected theorem mapM [LawfulMonad m] {f : β → ExceptT ε m α} {g : β → Option α} {items : List β}
    (h : ∀ b ∈ items, ComesTo (f b) (g b)) : ComesTo (items.mapM f) (items.mapM g) := by
  induction items with
  | nil =>
    rw [List.mapM_nil, List.mapM_nil]
    exact .pure []
  | cons b items ih =>
    rw [List.mapM_cons, List.mapM_cons]
    refine (h b (List.mem_cons_self ..)).bind fun a => ?_
    refine (ih fun b hb => h b (List.mem_cons_of_mem _ hb)).bind fun as => ?_
    exact .pure _

end ComesTo

/-- Computations that are run in a tree, as far as they leave it as it is. -/
@[reducible] def determinedIn (t : FileTree) : Determined InTree where
  Gives x a := x.run t = (a, t)
  gives_pure _ := rfl
  gives_bind hx hf := by
    rw [StateT.run_bind, hx]
    exact hf
  gives_map f hx := by
    rw [StateT.run_map, hx]
    rfl

namespace Loading

/-! ## From the contents of files -/

/-- Whether the manifest among the files announces layers, if it can be read. -/
def announced? (files : List (SourceFile Bytes)) : Option Bool :=
  match files.find? fun f => f.path = Manifest.path with
  | none => some false
  | some f => (Manifest.isMultiRelease f.source).toOption

/-- The classes of the selected files, unless one of them cannot be loaded. -/
def classesHeld? (release : Int) (files : List (SourceFile Bytes)) : Option (List DeclaredClass) :=
  (announced? files).bind fun multiRelease =>
    ((Layer.select multiRelease release files).mapM fun f =>
      (classOf release f.path f.source).toOption).map (List.filterMap id)

/-- The files with the contents that are read for them. -/
def withContents {α : Type} (content : α → Bytes) (files : List (SourceFile α)) :
    List (SourceFile Bytes) :=
  files.map fun f => ⟨f.path, content f.source⟩

variable {m : Type → Type} [Monad m] [LawfulMonad m] [Determined m] {α : Type}
  {read : α → ExceptT LoadCause m Bytes} {content : α → Bytes} {files : List (SourceFile α)}

theorem comesTo_multiReleaseOf (hdistinct : (files.map (·.path)).Nodup)
    (hread : ∀ f ∈ files, ComesTo (read f.source) (some (content f.source))) :
    ComesTo (multiReleaseOf read files) (announced? (withContents content files)) := by
  -- After the manifest there is no other one, so what was found stays.
  have key : ∀ (files : List (SourceFile α)) (found : Bool), (files.map (·.path)).Nodup →
      (∀ f ∈ files, ComesTo (read f.source) (some (content f.source))) →
      ComesTo (files.foldlM (fun found f => do
        if f.path = Manifest.path then
          let content ← read f.source
          ExceptT.mk (pure ((Manifest.isMultiRelease content).mapError LoadCause.manifest))
        else return found) found)
        (match (withContents content files).find? fun f => f.path = Manifest.path with
          | none => some found
          | some f => (Manifest.isMultiRelease f.source).toOption) := by
    intro files
    induction files with
    | nil =>
      intro found _ _
      exact .pure found
    | cons f files ih =>
      intro found hdistinct hread
      obtain ⟨hnew, hrest⟩ := List.nodup_cons.mp hdistinct
      have hreadRest : ∀ f ∈ files, ComesTo (read f.source) (some (content f.source)) :=
        fun f hf => hread f (List.mem_cons_of_mem _ hf)
      rw [List.foldlM_cons]
      by_cases hpath : f.path = Manifest.path
      · have hnone : (withContents content files).find? (fun f => f.path = Manifest.path) = none := by
          rw [List.find?_eq_none]
          rintro _ hmem heq
          obtain ⟨g, hg, rfl⟩ := List.mem_map.mp hmem
          exact hnew (List.mem_map.mpr ⟨g, hg, by simpa [hpath] using heq⟩)
        have hhead : ComesTo (do
            let content ← read f.source
            ExceptT.mk (pure ((Manifest.isMultiRelease content).mapError LoadCause.manifest)))
            (Manifest.isMultiRelease (content f.source)).toOption := by
          refine (hread f (List.mem_cons_self ..)).bind_some ?_
          exact (ComesTo.mk_pure _).of_eq (toOption_mapError ..)
        simp only [hpath, if_true, withContents, List.map_cons, List.find?_cons, decide_true]
        refine (hhead.bind fun found => ih found hrest hreadRest).of_eq ?_
        rw [hnone]
        simp
      · simp only [hpath, if_false, withContents, List.map_cons, List.find?_cons, decide_false,
          pure_bind]
        exact ih found hrest hreadRest
  exact key files false hdistinct hread

theorem comesTo_classesIn (release : Int) (step : LoadStep)
    (hdistinct : (files.map (·.path)).Nodup)
    (hread : ∀ f ∈ files, ComesTo (read f.source) (some (content f.source))) :
    ComesTo (classesIn release step read files)
      (classesHeld? release (withContents content files)) := by
  refine ((comesTo_multiReleaseOf hdistinct hread).adapt _).bind fun multiRelease => ?_
  dsimp only
  rw [Layer.select_without_manifest, withContents, Layer.select_map, List.mapM_map]
  refine (ComesTo.bind (.mapM ?_) fun classes => .pure _).of_eq Option.map_eq_bind.symm
  intro f hf
  have hfiles : f ∈ files := by
    obtain ⟨⟨n, g⟩, hg, rfl⟩ := List.mem_map.mp hf
    exact (Layer.mem_selectWithLayer.mp hg).1
  exact ((hread f hfiles).adapt _).bind_some (.mk_pure _)

/-! ## The order of files -/

/-- Files announce layers for later releases if their manifest says so. -/
inductive Announces (files : List (SourceFile Bytes)) : Bool → Prop where
  | manifest {f : SourceFile Bytes} {multiRelease : Bool} : f ∈ files → f.path = Manifest.path →
      Manifest.isMultiRelease f.source = .ok multiRelease → Announces files multiRelease
  | absent : (∀ f ∈ files, f.path ≠ Manifest.path) → Announces files false

theorem announced?_eq_some_iff {files : List (SourceFile Bytes)} {multiRelease : Bool}
    (hdistinct : (files.map (·.path)).Nodup) :
    announced? files = some multiRelease ↔ Announces files multiRelease := by
  unfold announced?
  cases hfind : files.find? fun f => f.path = Manifest.path with
  | none =>
    have hnone : ∀ f ∈ files, f.path ≠ Manifest.path := by simpa using List.find?_eq_none.mp hfind
    constructor
    · rintro ⟨⟩
      exact .absent hnone
    · rintro (⟨hf, hpath, -⟩ | -)
      · exact absurd hpath (hnone _ hf)
      · rfl
  | some f =>
    have hf := List.mem_of_find?_eq_some hfind
    have hpath : f.path = Manifest.path := by simpa using List.find?_some hfind
    constructor
    · intro h
      refine .manifest hf hpath ?_
      cases hanswer : Manifest.isMultiRelease f.source with
      | error failure => simp [hanswer, Except.toOption] at h
      | ok answer => simpa [hanswer, Except.toOption] using h
    · rintro (⟨hg, hpath', hanswer⟩ | hnone)
      · obtain rfl := List.inj_on_of_nodup_map hdistinct hf hg (hpath.trans hpath'.symm)
        simp [hanswer, Except.toOption]
      · exact absurd hpath (hnone f hf)

theorem Announces.of_perm {files others : List (SourceFile Bytes)} {multiRelease : Bool}
    (h : files.Perm others) (hannounces : Announces files multiRelease) :
    Announces others multiRelease := by
  cases hannounces with
  | manifest hf hpath hanswer => exact .manifest (h.mem_iff.mp hf) hpath hanswer
  | absent hnone => exact .absent fun f hf => hnone f (h.mem_iff.mpr hf)

/-- The order of the files plays no part. -/
theorem classesHeld?_perm {files others : List (SourceFile Bytes)} (release : Int)
    (hdistinct : (files.map (·.path)).Nodup) (h : files.Perm others) :
    classesHeld? release files = classesHeld? release others := by
  have hothers : (others.map (·.path)).Nodup := (h.map _).nodup_iff.mp hdistinct
  have hannounced : announced? files = announced? others := by
    ext multiRelease
    rw [announced?_eq_some_iff hdistinct, announced?_eq_some_iff hothers]
    exact ⟨.of_perm h, .of_perm h.symm⟩
  unfold classesHeld?
  rw [hannounced]
  congr 1
  funext multiRelease
  rw [Layer.select_perm hdistinct h]

/-- Whatever holds the files and in whatever order they are met, loading depends on their paths and
contents alone. -/
theorem comesTo_classesIn_of_perm (content : α → Bytes) {held : List (SourceFile Bytes)}
    (release : Int) (step : LoadStep) (hheld : (withContents content files).Perm held)
    (hdistinct : (held.map (·.path)).Nodup)
    (hread : ∀ f ∈ files, ComesTo (read f.source) (some (content f.source))) :
    ComesTo (classesIn release step read files) (classesHeld? release held) := by
  have hcontents : ((withContents content files).map (·.path)).Nodup :=
    (hheld.map _).nodup_iff.mpr hdistinct
  rw [← classesHeld?_perm release hcontents hheld]
  refine comesTo_classesIn release step ?_ hread
  simpa [withContents, Function.comp_def] using hcontents

end Loading

/-! ## Archives and directories that hold files -/

/-- The members of an archive, those aside that stand for directories, are files with given paths and
contents, in any order. A manifest is a file whatever it is said to be. -/
def Archive.Holds (data : Bytes) (files : List (SourceFile Bytes)) : Prop :=
  ∃ members, Archive.members data = .ok members ∧
    ((members.filter fun a => a.path = Manifest.path || !a.isDirectory).map fun a =>
      (a.path, a.content data)).Perm (files.map fun f => (f.path, .ok f.source))

/-- A file as it is packed. -/
def SourceFile.packed (f : SourceFile Bytes) : Archive.PackedFile := ⟨f.path, f.source⟩

/-- An archive holds the files that were packed into it, unless one of them passes for a directory. -/
theorem Archive.holds_pack {files : List (SourceFile Bytes)}
    (h : Packable (files.map SourceFile.packed)) (hfiles : ∀ f ∈ files, f.path.endsWith "/" = false) :
    Holds (pack (files.map SourceFile.packed)) files := by
  refine ⟨listing 0 (files.map SourceFile.packed), h.members_pack, ?_⟩
  have hall : (listing 0 (files.map SourceFile.packed)).filter
      (fun a => a.path = Manifest.path || !a.isDirectory) =
        listing 0 (files.map SourceFile.packed) := by
    refine List.filter_eq_self.mpr fun a ha => ?_
    obtain ⟨g, hg, place, rfl⟩ := mem_listing ha
    obtain ⟨f, hf, rfl⟩ := List.mem_map.mp hg
    have hdirectory : (f.packed.listed place).isDirectory = false :=
      (f.packed.isDirectory_listed place).trans (hfiles f hf)
    simp [hdirectory]
  rw [hall, h.contents_pack, List.map_map]
  exact .refl _

/-- The files below the directory at a path have given paths, from it, and contents. -/
def FileTree.Holds (t : FileTree) (p : Path) (files : List (SourceFile Bytes)) : Prop :=
  ∃ l, t.directoryAt p = .ok l ∧
    ((t.filesBelow l).map fun entry => ⟨Text.join Path.root entry.1, entry.2⟩).Perm files

namespace Loading

variable {files : List (SourceFile Bytes)}

theorem archiveClasses_toOption (release : Int) {data : Bytes} (h : Archive.Holds data files)
    (hdistinct : (files.map (·.path)).Nodup) :
    (archiveClasses release data).toOption = classesHeld? release files := by
  obtain ⟨members, hmembers, hperm⟩ := h
  have hfiles : ((archiveFiles members).map fun f => (f.path, f.source.content data)).Perm
      (files.map fun f => (f.path, .ok f.source)) := by
    rw [archiveFiles, List.map_map]
    exact hperm
  let content (a : ArchiveMember) : Bytes := (a.content data).toOption.getD []
  have hheld : (withContents content (archiveFiles members)).Perm files := by
    have hmap := hfiles.map fun entry : Text × Except ArchiveFailure Bytes =>
      (⟨entry.1, entry.2.toOption.getD []⟩ : SourceFile Bytes)
    simpa [withContents, content, Function.comp_def, Except.toOption] using hmap
  have hread : ∀ f ∈ archiveFiles members,
      ComesTo (memberContent data f.source) (some (content f.source)) := by
    intro f hf
    obtain ⟨g, -, heq⟩ := List.mem_map.mp (hfiles.mem_iff.mp (List.mem_map_of_mem hf))
    have hcontent : f.source.content data = .ok g.source := (Prod.mk.inj heq).2.symm
    refine (ComesTo.mk_pure _).of_eq ((toOption_mapError ..).trans ?_)
    simp [content, hcontent, Except.toOption]
  obtain ⟨r, hr, hoption⟩ :=
    comesTo_classesIn_of_perm content release .readManifest hheld hdistinct hread
  unfold archiveClasses
  generalize Archive.members data = found at hmembers
  subst hmembers
  rw [← hoption]
  exact congrArg Except.toOption hr

end Loading

namespace Loader

variable {t : FileTree} {p : Path} {files : List (SourceFile Bytes)}

theorem loadArchive_toOption (release : Int) (name : Text) {data : Bytes} (hread : t.read p = .ok data)
    (h : Archive.Holds data files) (hdistinct : (files.map (·.path)).Nodup) :
    (((Loader.mk release none).loadArchive (m := InTree) name p).run.run t).1.toOption =
      (Loading.classesHeld? release files).map (Artifact.ofClasses name) := by
  rw [run_loadArchive_none release name hread, ← Loading.archiveClasses_toOption release h hdistinct]
  cases Loading.archiveClasses release data <;> rfl

theorem loadDirectory_toOption (release : Int) (cache : Option Path) (name : Text)
    (ht : t.WellFormed) (h : t.Holds p files) (hdistinct : (files.map (·.path)).Nodup) :
    (((Loader.mk release cache).loadDirectory (m := InTree) name p).run.run t).1.toOption =
      (Loading.classesHeld? release files).map (Artifact.ofClasses name) := by
  obtain ⟨l, hdirectory, hperm⟩ := h
  obtain ⟨paths, hwalk, hpaths⟩ := FileTree.walk_perm hdirectory
  let content (path : Path) : Bytes := (t.read path).toOption.getD []
  let found : List (SourceFile Path) := paths.map fun path => ⟨path, Path.join [p, path]⟩
  have hheld : (Loading.withContents content found).Perm files := by
    have hmap := hpaths.map fun path => (⟨path, content (Path.join [p, path])⟩ : SourceFile Bytes)
    rw [List.map_map] at hmap
    have hsame : (t.filesBelow l).map ((fun path => ⟨path, content (Path.join [p, path])⟩) ∘
        fun entry => Text.join Path.root entry.1) =
          (t.filesBelow l).map fun entry => (⟨Text.join Path.root entry.1, entry.2⟩ : SourceFile Bytes) := by
      refine List.map_congr_left ?_
      rintro ⟨place, data⟩ hplace
      simp [content, ht.read_join hdirectory hplace, Except.toOption]
    rw [hsame] at hmap
    simpa [Loading.withContents, found, Function.comp_def] using hmap.trans hperm
  let _ := determinedIn t
  let read (path : Path) : ExceptT LoadCause InTree Bytes :=
    ExceptT.adapt LoadCause.file (ExceptT.mk (Host.read path))
  have hread : ∀ f ∈ found, ComesTo (read f.source) (some (content f.source)) := by
    intro f hf
    obtain ⟨path, hpath, rfl⟩ := List.mem_map.mp hf
    obtain ⟨⟨place, data⟩, hplace, rfl⟩ := List.mem_map.mp (hpaths.mem_iff.mp hpath)
    have hdata := ht.read_join hdirectory hplace
    refine ComesTo.adapt _ ⟨.ok data, congrArg (·, t) hdata, ?_⟩
    simp [content, hdata, Except.toOption]
  have hcomes : ComesTo ((Loader.mk release cache).loadDirectory (m := InTree) name p)
      ((Loading.classesHeld? release files).map (Artifact.ofClasses name)) := by
    have hask : ComesTo (ask (m := InTree) (.walk p) (Host.walk p)) (some paths) :=
      ComesTo.adapt _ ⟨.ok paths, congrArg (·, t) hwalk, rfl⟩
    refine hask.bind_some ?_
    have hclasses := Loading.comesTo_classesIn_of_perm content release (.walk p) hheld hdistinct hread
    exact (hclasses.bind fun classes => .pure _).of_eq Option.map_eq_bind.symm
  obtain ⟨r, hr, hoption⟩ := hcomes
  rw [show ((Loader.mk release cache).loadDirectory (m := InTree) name p).run.run t = (r, t) from hr]
  exact hoption

end Loader

end JvmLinkage
