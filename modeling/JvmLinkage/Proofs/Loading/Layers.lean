import JvmLinkage.Proofs.Linkage.World
import JvmLinkage.Proofs.Loading.Contents

/-!
# The highest layer wins

Of the files that hold a class of a name, in a layer that applies and in a version that the release
accepts, the one in the highest layer, and there the one with the last path, is the class that the
artifact holds. Files of too new versions are passed over, so they hide nothing.
-/

namespace JvmLinkage

namespace Loading

/-! ## Versions that a release accepts -/

/-- The class file is of a version that the release accepts, which for release zero is any. -/
def Suits (release : Int) (data : Bytes) : Prop :=
  0 < release → ∃ major minor, ClassFile.peekVersion data = .ok (major, minor) ∧
    (major.toNat : Int) ≤ release + 44

/-- The class file is of a version that the release does not accept yet. -/
def TooNew (release : Int) (data : Bytes) : Prop :=
  0 < release ∧ ∃ major minor, ClassFile.peekVersion data = .ok (major, minor) ∧
    release + 44 < (major.toNat : Int)

variable {release : Int} {data : Bytes} {c : DeclaredClass}

theorem toNat_majorVersionFor_eq_emod (release : Int) :
    ((majorVersionFor release).toNat : Int) = (release + 44) % 65536 := by
  rw [majorVersionFor, releaseOffset, UInt16.ofInt, UInt16.toNat_ofNat']
  omega

theorem toNat_majorVersionFor (hlow : 0 < release) (hhigh : release ≤ 65491) :
    ((majorVersionFor release).toNat : Int) = release + 44 := by
  rw [toNat_majorVersionFor_eq_emod, Int.emod_eq_of_lt (by omega) (by omega)]

/-- Below the greatest release whose version is a number of sixteen bits, the version that is read is
compared with that of the release. -/
theorem isTooNew_eq (hhigh : release ≤ 65491) :
    (isTooNew release data = .ok false ↔ Suits release data) ∧
      (isTooNew release data = .ok true ↔ TooNew release data) := by
  unfold isTooNew Suits TooNew
  by_cases hlow : 0 < release
  · have hversion := toNat_majorVersionFor hlow hhigh
    cases hpeek : ClassFile.peekVersion data with
    | error fault => simp [hlow, bind, Except.bind]
    | ok version =>
      obtain ⟨major, minor⟩ := version
      simp only [hlow, bind, Except.bind, pure, Except.pure, UInt16.lt_iff_toNat_lt]
      simp
      omega
  · simp [hlow]

/-- A file that is too new has no class, and one that is not has the class that it decodes to. -/
theorem classOf_eq_ok_iff (hhigh : release ≤ 65491) (path : Text) {found : Option DeclaredClass} :
    classOf release path data = .ok found ↔
      TooNew release data ∧ found = none ∨
        Suits release data ∧ ∃ c, DeclaredClass.decode data = .ok c ∧ found = some c := by
  rw [← (isTooNew_eq hhigh).1, ← (isTooNew_eq hhigh).2]
  unfold classOf
  cases isTooNew release data with
  | error fault => simp
  | ok tooNew =>
    cases tooNew with
    | true => simp [eq_comm]
    | false => cases DeclaredClass.decode data <;> simp [eq_comm]

/-- The class of a file, if it is of a version that the release accepts. -/
def accepted? (release : Int) (f : SourceFile Bytes) : Option DeclaredClass :=
  (classOf release f.path f.source).toOption.join

theorem accepted?_eq_some_iff (hhigh : release ≤ 65491) {f : SourceFile Bytes} :
    accepted? release f = some c ↔ Suits release f.source ∧ DeclaredClass.decode f.source = .ok c := by
  have hclass : accepted? release f = some c ↔ classOf release f.path f.source = .ok (some c) := by
    rw [accepted?]
    cases classOf release f.path f.source <;> simp [Except.toOption]
  rw [hclass, classOf_eq_ok_iff hhigh]
  simp

/-! ## The classes that are loaded -/

theorem mapM_filterMap_eq_some_iff {α β : Type} {f : α → Option (Option β)} {items : List α}
    {results : List β} : (items.mapM f).map (List.filterMap id) = some results ↔
      (∀ a ∈ items, (f a).isSome) ∧ (items.filterMap fun a => (f a).join) = results := by
  induction items generalizing results with
  | nil => simp
  | cons a items ih =>
    rw [List.mapM_cons]
    cases hfirst : f a with
    | none => simp [hfirst]
    | some first =>
      cases hrest : items.mapM f with
      | none =>
        have hnot : ¬ ∀ b ∈ items, (f b).isSome := by
          intro hall
          have hsome := ih.mpr ⟨hall, rfl⟩
          simp [hrest] at hsome
        simp [hfirst, hnot]
      | some rest =>
        obtain ⟨hall, hresults⟩ := ih.mp (by rw [hrest, Option.map_some])
        cases first with
        | none => simpa [hfirst, hresults] using fun _ => hall
        | some b => simpa [hfirst, hresults] using fun _ => hall

variable {files : List (SourceFile Bytes)} {multiRelease : Bool} {layer : Int} {f : SourceFile Bytes}

/-- One of the files is loaded in a layer, and it is a class file of a version that the release
accepts. -/
structure Offers (release : Int) (files : List (SourceFile Bytes)) (multiRelease : Bool) (layer : Int)
    (f : SourceFile Bytes) (c : DeclaredClass) : Prop where
  mem : f ∈ files
  applies : Layer.Applies multiRelease release f.path layer
  suits : Suits release f.source
  decodes : DeclaredClass.decode f.source = .ok c

/-- A class is offered in a layer under a path, and every file that offers a class of the same name
does so in a lower layer, or in the same one under a path that is not greater. -/
def Prevails (release : Int) (files : List (SourceFile Bytes)) (multiRelease : Bool)
    (c : DeclaredClass) : Prop :=
  ∃ layer f, Offers release files multiRelease layer f c ∧
    ∀ layer' f' c', Offers release files multiRelease layer' f' c' → c'.name = c.name →
      layer' < layer ∨ layer' = layer ∧ compare f'.path f.path ≠ .gt

/-- Every file that is loaded in a layer is too new, or can be decoded. -/
def Loads (release : Int) (files : List (SourceFile Bytes)) (multiRelease : Bool) : Prop :=
  ∀ f ∈ files, ∀ layer, Layer.Applies multiRelease release f.path layer →
    TooNew release f.source ∨
      Suits release f.source ∧ ∃ c, DeclaredClass.decode f.source = .ok c

theorem offers_iff (hhigh : release ≤ 65491) : Offers release files multiRelease layer f c ↔
    (layer, f) ∈ Layer.selectWithLayer multiRelease release files ∧ accepted? release f = some c := by
  rw [Layer.mem_selectWithLayer, accepted?_eq_some_iff hhigh]
  constructor
  · rintro ⟨hmem, happlies, hsuits, hdecodes⟩
    exact ⟨⟨hmem, happlies⟩, hsuits, hdecodes⟩
  · rintro ⟨⟨hmem, happlies⟩, hsuits, hdecodes⟩
    exact ⟨hmem, happlies, hsuits, hdecodes⟩

theorem loads_iff (hhigh : release ≤ 65491) : Loads release files multiRelease ↔
    ∀ f ∈ Layer.select multiRelease release files,
      ((classOf release f.path f.source).toOption).isSome := by
  have hclass (f : SourceFile Bytes) : ((classOf release f.path f.source).toOption).isSome ↔
      TooNew release f.source ∨
        Suits release f.source ∧ ∃ c, DeclaredClass.decode f.source = .ok c := by
    have hsome : ((classOf release f.path f.source).toOption).isSome ↔
        ∃ found, classOf release f.path f.source = .ok found := by
      cases classOf release f.path f.source <;> simp [Except.toOption]
    rw [hsome]
    simp only [classOf_eq_ok_iff hhigh]
    constructor
    · rintro ⟨found, ⟨hnew, -⟩ | ⟨hsuits, c, hc, -⟩⟩
      · exact .inl hnew
      · exact .inr ⟨hsuits, c, hc⟩
    · rintro (hnew | ⟨hsuits, c, hc⟩)
      · exact ⟨none, .inl ⟨hnew, rfl⟩⟩
      · exact ⟨some c, .inr ⟨hsuits, c, hc, rfl⟩⟩
  simp only [hclass]
  constructor
  · intro h f hf
    obtain ⟨⟨layer, f⟩, hentry, rfl⟩ := List.mem_map.mp hf
    obtain ⟨hmem, happlies⟩ := Layer.mem_selectWithLayer.mp hentry
    exact h f hmem layer happlies
  · intro h f hf layer happlies
    exact h f (List.mem_map.mpr ⟨(layer, f), Layer.mem_selectWithLayer.mpr ⟨hf, happlies⟩, rfl⟩)

/-- The classes that are loaded, lowest layer first. -/
def loaded (release : Int) (files : List (SourceFile Bytes)) (multiRelease : Bool) :
    List DeclaredClass :=
  (Layer.selectWithLayer multiRelease release files).filterMap fun entry =>
    accepted? release entry.2

theorem classesHeld?_eq_some_iff (hhigh : release ≤ 65491) (hdistinct : (files.map (·.path)).Nodup)
    {classes : List DeclaredClass} : classesHeld? release files = some classes ↔
      ∃ multiRelease, Announces files multiRelease ∧ Loads release files multiRelease ∧
        loaded release files multiRelease = classes := by
  simp only [classesHeld?, Option.bind_eq_some_iff, announced?_eq_some_iff hdistinct,
    mapM_filterMap_eq_some_iff, ← loads_iff hhigh]
  refine exists_congr fun multiRelease => and_congr_right fun _ => and_congr_right fun _ => ?_
  rw [Layer.select, List.filterMap_map]
  rfl

/-! ## The class that prevails -/

/-- The last class of a name was offered above all others of the name. -/
theorem prevails_of_find? (hhigh : release ≤ 65491) {name : ClassName} {a : Text}
    (h : (Artifact.ofClasses a (loaded release files multiRelease)).find? name = some c) :
    c.name = name ∧ Prevails release files multiRelease c := by
  obtain ⟨hname, front, back, hclasses, hback⟩ := Artifact.find?_ofClasses_eq_some_iff.mp h
  refine ⟨hname, ?_⟩
  obtain ⟨low, rest, hsplit, -, hrest⟩ := List.filterMap_eq_append_iff.mp hclasses
  obtain ⟨none, ⟨layer, f⟩, high, rfl, -, hf, hhighest⟩ := List.filterMap_eq_cons_iff.mp hrest
  have hordered := Layer.pairwise_selectWithLayer multiRelease release files
  have hmem : (layer, f) ∈ Layer.selectWithLayer multiRelease release files := by
    rw [hsplit]
    simp
  refine ⟨layer, f, (offers_iff hhigh).mpr ⟨hmem, hf⟩, ?_⟩
  intro layer' f' c' hoffers hc'
  obtain ⟨hmem', hf'⟩ := (offers_iff hhigh).mp hoffers
  apply Layer.before_iff.mp
  rw [hsplit, ← List.append_assoc] at hmem' hordered
  rcases List.mem_append.mp hmem' with hlow | hrest
  · exact (List.pairwise_append.mp hordered).2.2 _ hlow _ (List.mem_cons_self ..)
  · rcases List.mem_cons.mp hrest with heq | hhigher
    · cases heq
      have htotal := Layer.before_total (layer, f.path) (layer, f.path)
      simpa using htotal
    · have hc : c' ∈ back := by
        rw [← hhighest]
        exact List.mem_filterMap.mpr ⟨(layer', f'), hhigher, hf'⟩
      exact absurd (hc'.trans hname) (hback c' hc)

theorem isSome_find?_of_offers (hhigh : release ≤ 65491) (a : Text)
    (h : Offers release files multiRelease layer f c) :
    ((Artifact.ofClasses a (loaded release files multiRelease)).find? c.name).isSome := by
  obtain ⟨hmem, hf⟩ := (offers_iff hhigh).mp h
  rw [Artifact.find?_ofClasses, List.find?_isSome]
  exact ⟨c, List.mem_reverse.mpr (List.mem_filterMap.mpr ⟨(layer, f), hmem, hf⟩), by simp⟩

theorem find?_iff_prevails (hhigh : release ≤ 65491) (hdistinct : (files.map (·.path)).Nodup)
    {name : ClassName} (a : Text) :
    (Artifact.ofClasses a (loaded release files multiRelease)).find? name = some c ↔
      c.name = name ∧ Prevails release files multiRelease c := by
  refine ⟨prevails_of_find? hhigh, ?_⟩
  rintro ⟨rfl, layer, f, hoffers, hhighest⟩
  obtain ⟨d, hd⟩ := Option.isSome_iff_exists.mp (isSome_find?_of_offers hhigh a hoffers)
  obtain ⟨hname, layer', f', hoffers', hhighest'⟩ := prevails_of_find? hhigh hd
  -- Both are above each other, so they have the same path, and there is but one file with it.
  have hbefore := hhighest layer' f' d hoffers' hname
  have hafter := hhighest' layer f c hoffers hname.symm
  have heq : (layer', f'.path) = (layer, f.path) :=
    Layer.before_antisymm (Layer.before_iff.mpr hbefore) (Layer.before_iff.mpr hafter)
  obtain rfl := List.inj_on_of_nodup_map hdistinct hoffers'.mem hoffers.mem (Prod.mk.inj heq).2
  obtain rfl : d = c := Except.ok.inj (hoffers'.decodes.symm.trans hoffers.decodes)
  exact hd

/-- Loading depends on nothing but the files, whether an archive holds them in some order or a
directory holds them. It succeeds if the manifest can be read and every file of a layer that applies
is too new or can be decoded. Then the artifact holds the classes that prevail and no others. So a
file that is too new hides nothing, and without a release no file of a later layer is used. -/
theorem load_highest_layer (release : Int) (hhigh : release ≤ 65491) (name : Text)
    (files : List (SourceFile Bytes)) (hdistinct : (files.map (·.path)).Nodup) :
    ∃ result : Option Artifact,
      (∀ t p data, t.read p = .ok data → Archive.Holds data files →
        (((Loader.mk release none).loadArchive (m := InTree) name p).run.run t).1.toOption =
          result) ∧
      (∀ t p, t.WellFormed → t.Holds p files →
        (((Loader.mk release none).loadDirectory (m := InTree) name p).run.run t).1.toOption =
          result) ∧
      (result.isSome ↔
        ∃ multiRelease, Announces files multiRelease ∧ Loads release files multiRelease) ∧
      ∀ a, result = some a → ∃ multiRelease, Announces files multiRelease ∧ a.name = name ∧
        (∀ n c, a.find? n = some c ↔ c.name = n ∧ Prevails release files multiRelease c) ∧
        (∀ layer f c, Offers release files multiRelease layer f c → (a.find? c.name).isSome) ∧
        (release = 0 → ∀ n c, a.find? n = some c → ∃ f ∈ files,
          ¬ Text.ofString "META-INF/versions/" <+: f.path ∧
            DeclaredClass.decode f.source = .ok c) := by
  refine ⟨(classesHeld? release files).map (Artifact.ofClasses name), ?_, ?_, ?_, ?_⟩
  · intro t p data hread hholds
    exact Loader.loadArchive_toOption release name hread hholds hdistinct
  · intro t p ht hholds
    exact Loader.loadDirectory_toOption release none name ht hholds hdistinct
  · rw [Option.isSome_map, Option.isSome_iff_exists]
    simp only [classesHeld?_eq_some_iff hhigh hdistinct]
    constructor
    · rintro ⟨_, multiRelease, hannounces, hloads, -⟩
      exact ⟨multiRelease, hannounces, hloads⟩
    · rintro ⟨multiRelease, hannounces, hloads⟩
      exact ⟨_, multiRelease, hannounces, hloads, rfl⟩
  · intro a ha
    obtain ⟨classes, hclasses, rfl⟩ := Option.map_eq_some_iff.mp ha
    obtain ⟨multiRelease, hannounces, -, rfl⟩ := (classesHeld?_eq_some_iff hhigh hdistinct).mp hclasses
    refine ⟨multiRelease, hannounces, rfl, fun n c => find?_iff_prevails hhigh hdistinct name, ?_, ?_⟩
    · intro layer f c hoffers
      exact isSome_find?_of_offers hhigh name hoffers
    · rintro rfl n c hc
      obtain ⟨-, layer, f, hoffers, -⟩ := prevails_of_find? hhigh hc
      refine ⟨f, hoffers.mem, ?_, hoffers.decodes⟩
      cases hoffers.applies with
      | base _ houtside => exact houtside
      | later _ _ _ _ hfirst hlast => omega

/-! ## A class in three layers -/

/-- A class file of a version, with a super class that tells it from others. -/
def sampleData (major : UInt16) (superName : Text) : Bytes :=
  ((do Assembler.start "a/B" superName []; Assembler.version major).run {}).2.bytes

/-- The class in the base layer, in that of release nine, and in that of release eleven in a version
that came later. -/
def sampleFiles : List (SourceFile Bytes) := [
  ⟨"META-INF/MANIFEST.MF", Text.ofString "Multi-Release: true\n"⟩,
  ⟨"META-INF/versions/9/a/B.class", sampleData 53 "a/Nine"⟩,
  ⟨"META-INF/versions/11/a/B.class", sampleData 60 "a/Eleven"⟩,
  ⟨"a/B.class", sampleData 52 "a/Base"⟩]

def sampleArchive : Bytes := Archive.pack (sampleFiles.map SourceFile.packed)

/-- The files in an archive, and in another order in a directory. -/
def sampleTree : FileTree :=
  sampleFiles.reverse.foldl (fun t f =>
    let p : Path := Text.ofString "d/" ++ f.path
    let made := (t.makeDirectories (Path.directory p)).toOption.getD t
    (made.write p f.source).toOption.getD made)
    { nodes := [([Text.ofString "a.jar"], .file sampleArchive)] }

/-- The class with a super class. -/
def sampleClass (superName : Text) : DeclaredClass :=
  ((ClassBuilder.start ⟨"a.B"⟩).addParents [⟨superName⟩]).build

theorem decode_sample : DeclaredClass.decode (sampleData 53 "a/Nine") = .ok (sampleClass "a.Nine") ∧
    DeclaredClass.decode (sampleData 52 "a/Base") = .ok (sampleClass "a.Base") := by
  decide +kernel

theorem peekVersion_sample : ClassFile.peekVersion (sampleData 53 "a/Nine") = .ok (53, 0) ∧
    ClassFile.peekVersion (sampleData 60 "a/Eleven") = .ok (60, 0) ∧
    ClassFile.peekVersion (sampleData 52 "a/Base") = .ok (52, 0) := by
  decide +kernel

/-- The layers of the files. -/
theorem applies_sample {layer : Int} (hf : f ∈ sampleFiles)
    (h : Layer.Applies true 11 f.path layer) :
    f.source = sampleData 53 "a/Nine" ∧ layer = 9 ∧ f.path = "META-INF/versions/9/a/B.class" ∨
      f.source = sampleData 60 "a/Eleven" ∧ layer = 11 ∨
      f.source = sampleData 52 "a/Base" ∧ layer = 0 := by
  have happlicable := Layer.applicable?_eq_some_iff.mpr h
  simp only [sampleFiles, List.mem_cons, List.not_mem_nil, or_false] at hf
  rcases hf with rfl | rfl | rfl | rfl
  · rw [show Layer.applicable? true 11 (Text.ofString "META-INF/MANIFEST.MF") = none by
      decide +kernel] at happlicable
    contradiction
  · rw [show Layer.applicable? true 11 (Text.ofString "META-INF/versions/9/a/B.class") = some 9 by
      decide +kernel] at happlicable
    exact .inl ⟨rfl, (Option.some.inj happlicable).symm, rfl⟩
  · rw [show Layer.applicable? true 11 (Text.ofString "META-INF/versions/11/a/B.class") = some 11 by
      decide +kernel] at happlicable
    exact .inr (.inl ⟨rfl, (Option.some.inj happlicable).symm⟩)
  · rw [show Layer.applicable? true 11 (Text.ofString "a/B.class") = some 0 by
      decide +kernel] at happlicable
    exact .inr (.inr ⟨rfl, (Option.some.inj happlicable).symm⟩)

theorem announces_sample : Announces sampleFiles true :=
  .manifest (List.mem_cons_self ..) rfl (by decide +kernel)

theorem loads_sample : Loads 11 sampleFiles true := by
  obtain ⟨hnine, hbase⟩ := decode_sample
  obtain ⟨hvnine, hveleven, hvbase⟩ := peekVersion_sample
  intro f hf layer happlies
  rcases applies_sample hf happlies with ⟨hsource, -⟩ | ⟨hsource, -⟩ | ⟨hsource, -⟩
  · rw [hsource]
    exact .inr ⟨fun _ => ⟨53, 0, hvnine, by decide⟩, _, hnine⟩
  · rw [hsource]
    exact .inl ⟨by decide, 60, 0, hveleven, by decide⟩
  · rw [hsource]
    exact .inr ⟨fun _ => ⟨52, 0, hvbase, by decide⟩, _, hbase⟩

theorem prevails_sample : Prevails 11 sampleFiles true (sampleClass "a.Nine") := by
  have happlies : Layer.Applies true 11 "META-INF/versions/9/a/B.class" 9 :=
    Layer.applicable?_eq_some_iff.mp (by decide +kernel)
  refine ⟨9, ⟨"META-INF/versions/9/a/B.class", sampleData 53 "a/Nine"⟩, ⟨by simp [sampleFiles],
    happlies, fun _ => ⟨53, 0, peekVersion_sample.1, by decide⟩, decode_sample.1⟩, ?_⟩
  rintro layer f c ⟨hf, happlies, hsuits, -⟩ -
  rcases applies_sample hf happlies with ⟨-, rfl, hpath⟩ | ⟨hsource, -⟩ | ⟨-, rfl⟩
  · refine .inr ⟨rfl, ?_⟩
    rw [hpath]
    decide +kernel
  · -- The class of the highest layer is too new, so it does not count.
    obtain ⟨major, minor, hversion, hle⟩ := hsuits (by decide)
    rw [hsource, peekVersion_sample.2.1] at hversion
    cases hversion
    contradiction
  · exact .inl (by decide)

theorem sample_load_highest_layer : ∃ a : Artifact,
    (((Loader.mk 11 none).loadArchive (m := InTree) "a" "a.jar").run.run sampleTree).1.toOption =
      some a ∧
    (((Loader.mk 11 none).loadDirectory (m := InTree) "a" "d").run.run sampleTree).1.toOption =
      some a ∧
    a.find? ⟨"a.B"⟩ = some (sampleClass "a.Nine") := by
  obtain ⟨result, harchive, hdirectory, hloads, hfind⟩ :=
    load_highest_layer 11 (by decide) "a" sampleFiles (by decide +kernel)
  obtain ⟨a, rfl⟩ :=
    Option.isSome_iff_exists.mp (hloads.mpr ⟨true, announces_sample, loads_sample⟩)
  have hread : sampleTree.read "a.jar" = .ok sampleArchive := by decide +kernel
  have hpackable : Archive.Packable (sampleFiles.map SourceFile.packed) :=
    ⟨by decide +kernel, by decide +kernel, by decide +kernel, by decide +kernel, by decide +kernel⟩
  have hholds : Archive.Holds sampleArchive sampleFiles :=
    Archive.holds_pack hpackable (by decide +kernel)
  have hformed : sampleTree.WellFormed := ⟨by decide +kernel, by decide +kernel, by decide +kernel⟩
  have hholds' : sampleTree.Holds "d" sampleFiles :=
    ⟨["d"], by decide +kernel, by decide +kernel⟩
  refine ⟨a, harchive _ _ _ hread hholds, hdirectory _ _ hformed hholds', ?_⟩
  obtain ⟨multiRelease, hannounces, -, hheld, -⟩ := hfind a rfl
  have hdistinct : (sampleFiles.map (·.path)).Nodup := by decide +kernel
  obtain rfl : true = multiRelease := by
    rw [← announced?_eq_some_iff hdistinct] at hannounces
    exact Option.some.inj (((announced?_eq_some_iff hdistinct).mpr announces_sample).symm.trans hannounces)
  exact (hheld ⟨"a.B"⟩ _).mpr ⟨rfl, prevails_sample⟩

end Loading

end JvmLinkage
