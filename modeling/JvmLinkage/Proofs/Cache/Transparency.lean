import JvmLinkage.Archive.Packing
import JvmLinkage.Assembler
import JvmLinkage.Loading.Loader
import JvmLinkage.Proofs.Cache.Store
import JvmLinkage.Proofs.Declared.Decoding

/-!
# The cache changes no result

Archives of any content are loaded for any release, one after the other, with one cache. An entry of
the cache was written by one of these loads, or it cannot be used. Then every load gives the artifact
that it gives without a cache, if there is one.
-/

namespace JvmLinkage

/-! ## Loaded classes -/

namespace Loading

theorem accepted_of_classOf {release : Int} {path : Text} {data : Bytes} {found : Option DeclaredClass}
    (h : classOf release path data = .ok found) : ∀ c ∈ found, c.Accepted := by
  unfold classOf at h
  split at h
  · contradiction
  · cases h
    nofun
  · split at h
    case h_1 c hc =>
      cases h
      rintro _ ⟨⟩
      exact DeclaredClass.accepted_of_decode hc
    case h_2 => contradiction

theorem ensures_id {ε α : Type} (x : ExceptT ε Id α) : Ensures x fun _ => True :=
  ⟨x.run, rfl, fun _ _ => trivial⟩

theorem ensures_classesIn {α : Type} (release : Int) (step : LoadStep)
    (read : α → ExceptT LoadCause Id Bytes) (files : List (SourceFile α)) :
    Ensures (classesIn release step read files) fun classes => ∀ c ∈ classes, c.Accepted := by
  refine (ensures_id _).bind fun multiRelease _ => ?_
  refine (Ensures.mapM (p := fun found => ∀ c ∈ found, DeclaredClass.Accepted c) ?_ _).bind
    fun found hfound => .pure ?_
  · intro f
    refine (ensures_id _).bind fun data _ => ?_
    exact ⟨_, rfl, fun found hfound => accepted_of_classOf hfound⟩
  · intro c hc
    obtain ⟨o, ho, hoc⟩ := List.mem_filterMap.mp hc
    exact hfound o ho c hoc

theorem accepted_of_archiveClasses {release : Int} {data : Bytes} {classes : List DeclaredClass}
    (h : archiveClasses release data = .ok classes) : ∀ c ∈ classes, c.Accepted := by
  unfold archiveClasses at h
  generalize Archive.members data = found at h
  cases found with
  | error cause => cases h
  | ok members =>
    obtain ⟨r, hr, hclasses⟩ :=
      ensures_classesIn release .readManifest (memberContent data) (archiveFiles members)
    exact hclasses classes (hr.symm.trans h)

end Loading

/-! ## Computations that leave the tree as it is -/

namespace InTree

variable {ε α β : Type} {x : ExceptT ε InTree α} {f : α → ExceptT ε InTree β} {t t' : FileTree}

theorem run_bind_ok {a : α} (h : x.run.run t = (.ok a, t')) :
    (x >>= f).run.run t = (f a).run.run t' := by
  rw [ExceptT.run_bind, StateT.run_bind, h]
  rfl

theorem run_bind_error {e : ε} (h : x.run.run t = (.error e, t')) :
    (x >>= f).run.run t = (.error e, t') := by
  rw [ExceptT.run_bind, StateT.run_bind, h]
  rfl

/-- Both parts of a computation that succeeds do so. -/
theorem exists_of_run_bind_ok {b : β} (h : (x >>= f).run.run t = (.ok b, t')) :
    ∃ a t₁, x.run.run t = (.ok a, t₁) ∧ (f a).run.run t₁ = (.ok b, t') := by
  rcases hx : x.run.run t with ⟨e | a, t₁⟩
  · rw [run_bind_error hx] at h
    cases h
  · exact ⟨a, t₁, rfl, (run_bind_ok hx).symm.trans h⟩

theorem run_lift (x : InTree α) (t : FileTree) :
    (ExceptT.lift x : ExceptT ε InTree α).run.run t = (.ok (x.run t).1, (x.run t).2) := by
  rw [ExceptT.run_lift, StateT.run_map]
  rfl

theorem run_adapt_ok {δ : Type} (g : ε → δ) {a : α} (h : x.run.run t = (.ok a, t')) :
    (ExceptT.adapt g x).run.run t = (.ok a, t') := by
  change (Except.mapError g <$> x.run).run t = _
  rw [StateT.run_map, h]
  rfl

theorem run_adapt_error {δ : Type} (g : ε → δ) {e : ε} (h : x.run.run t = (.error e, t')) :
    (ExceptT.adapt g x).run.run t = (.error (g e), t') := by
  change (Except.mapError g <$> x.run).run t = _
  rw [StateT.run_map, h]
  rfl

end InTree

/-- The computation leaves every tree as it is. -/
def Still {ε α : Type} (x : ExceptT ε InTree α) : Prop := ∀ t : FileTree, (x.run.run t).2 = t

namespace Still

variable {ε δ α β : Type}

protected theorem pure (a : α) : Still (pure a : ExceptT ε InTree α) := fun _ => rfl

theorem mk_pure (r : Except ε α) : Still (ExceptT.mk (pure r : InTree _)) := fun _ => rfl

protected theorem bind {x : ExceptT ε InTree α} {f : α → ExceptT ε InTree β} (hx : Still x)
    (hf : ∀ a, Still (f a)) : Still (x >>= f) := by
  intro t
  have ht := hx t
  rcases hrun : x.run.run t with ⟨e | a, t'⟩
  · rw [InTree.run_bind_error hrun]
    rwa [hrun] at ht
  · rw [InTree.run_bind_ok hrun]
    rw [hrun] at ht
    obtain rfl : t' = t := ht
    exact hf a t'

protected theorem adapt {x : ExceptT ε InTree α} (f : ε → δ) (hx : Still x) :
    Still (ExceptT.adapt f x) := hx

theorem mapM {f : β → ExceptT ε InTree α} (h : ∀ b, Still (f b)) (items : List β) :
    Still (items.mapM f) := by
  have key : ∀ (items : List β) (done : List α), Still (List.mapM.loop f items done) := by
    intro items
    induction items with
    | nil => exact fun done => .pure done.reverse
    | cons b items ih => exact fun done => (h b).bind fun a => ih (a :: done)
  exact key items []

theorem foldlM {f : α → β → ExceptT ε InTree α} (h : ∀ a b, Still (f a b)) (items : List β) (a : α) :
    Still (items.foldlM f a) := by
  induction items generalizing a with
  | nil => exact .pure a
  | cons b items ih => exact (h a b).bind fun a' => ih a'

theorem ask_read (step : LoadStep) (p : Path) : Still (Loader.ask step (Host.read p)) := fun _ => rfl

theorem ask_walk (step : LoadStep) (p : Path) : Still (Loader.ask step (Host.walk p)) := fun _ => rfl

end Still

theorem Loading.still_classesIn {α : Type} (release : Int) (step : LoadStep)
    {read : α → ExceptT LoadCause InTree Bytes} (hread : ∀ a, Still (read a))
    (files : List (SourceFile α)) : Still (classesIn release step read files) := by
  refine Still.bind (.adapt _ (.foldlM ?_ _ _)) fun multiRelease => ?_
  · intro found f
    split
    · exact (hread _).bind fun content => .mk_pure _
    · exact .pure found
  · refine Still.bind (.mapM ?_ _) fun classes => .pure _
    exact fun f => ((hread _).adapt _).bind fun data => .mk_pure _

namespace Loader

theorem still_loadDirectory (l : Loader) (name : Text) (p : Path) :
    Still (l.loadDirectory (m := InTree) name p) := by
  refine (Still.ask_walk _ p).bind fun paths => ?_
  refine Still.bind (Loading.still_classesIn _ _ ?_ _) fun classes => .pure _
  exact fun path t => rfl

theorem still_loadClassFile (l : Loader) (name : Text) (p : Path) :
    Still (l.loadClassFile (m := InTree) name p) := by
  refine (Still.ask_read _ p).bind fun data => ?_
  exact (Still.mk_pure _).bind fun c => .pure _

/-! ## Loading in a tree -/

variable {t : FileTree} {p : Path}

theorem run_ask {α : Type} (step : LoadStep) {x : InTree (Except FileFailure α)}
    {r : Except FileFailure α} (h : x.run t = (r, t)) :
    (ask step x).run.run t = (r.mapError fun cause => ⟨[step], .file cause⟩, t) := by
  change (Except.mapError _ <$> x).run t = _
  rw [StateT.run_map, h]
  rfl

/-- Only the loading of an archive depends on the cache and may change the tree. -/
theorem run_loadNamed_cases (release : Int) (name : Text) (p : Path) (t : FileTree) :
    (∃ r, ∀ cache, ((Loader.mk release cache).loadNamed (m := InTree) name p).run.run t = (r, t)) ∨
      p.endsWith ".class" = false ∧ ∀ cache,
        ((Loader.mk release cache).loadNamed (m := InTree) name p).run.run t =
          ((Loader.mk release cache).loadArchive (m := InTree) name p).run.run t := by
  have hask := run_ask (t := t) (r := t.kind p) .statArtifact (x := Host.kind p) rfl
  cases hkind : t.kind p with
  | error cause =>
    rw [hkind] at hask
    exact .inl ⟨_, fun cache => InTree.run_bind_error hask⟩
  | ok kind =>
    rw [hkind] at hask
    cases kind with
    | directory =>
      let r := (((Loader.mk release none).loadDirectory (m := InTree) name p).run.run t).1
      refine .inl ⟨r, fun cache => (InTree.run_bind_ok hask).trans ?_⟩
      exact Prod.ext rfl (still_loadDirectory ⟨release, none⟩ name p t)
    | file =>
      cases hclass : p.endsWith ".class" with
      | true =>
        let r := (((Loader.mk release none).loadClassFile (m := InTree) name p).run.run t).1
        refine .inl ⟨r, fun cache => (InTree.run_bind_ok hask).trans ?_⟩
        simp only [hclass, if_true]
        exact Prod.ext rfl (still_loadClassFile ⟨release, none⟩ name p t)
      | false =>
        refine .inr ⟨rfl, fun cache => (InTree.run_bind_ok hask).trans ?_⟩
        simp [hclass]

theorem run_loadArchive_unread (release : Int) (cache : Option Path) (name : Text)
    {failure : FileFailure} (h : t.read p = .error failure) :
    ∃ e, ((Loader.mk release cache).loadArchive (m := InTree) name p).run.run t = (.error e, t) := by
  cases cache with
  | none =>
    have hask := run_ask (t := t) (r := t.read p) .openArchive (x := Host.read p) rfl
    rw [h] at hask
    exact ⟨_, InTree.run_bind_error hask⟩
  | some directory =>
    have hask := run_ask (t := t) (r := t.read p) .openForHashing (x := Host.read p) rfl
    rw [h] at hask
    exact ⟨_, InTree.run_bind_error hask⟩

theorem run_loadArchive_none (release : Int) (name : Text) {data : Bytes} (h : t.read p = .ok data) :
    ((Loader.mk release none).loadArchive (m := InTree) name p).run.run t =
      (((Loading.archiveClasses release data).mapError (LoadFailure.inArchive p)).map
        (Artifact.ofClasses name), t) := by
  have hask := run_ask (t := t) (r := t.read p) .openArchive (x := Host.read p) rfl
  rw [h] at hask
  refine (InTree.run_bind_ok hask).trans ?_
  generalize Loading.archiveClasses release data = found
  cases found with
  | error failure => rfl
  | ok classes => rfl

theorem run_cachedClasses (l : Loader) (directory : Path) (data : Bytes) (t : FileTree) :
    (l.cachedClasses (m := InTree) directory data).run.run t =
      match ((Cache.get (m := InTree) directory (Cache.key l.release data)).run t).1 with
      | .ok (some classes) => (.ok classes, t)
      | _ =>
        match Loading.archiveClasses l.release data with
        | .error failure => (.error failure, t)
        | .ok classes =>
          (.ok classes,
            ((Cache.put (m := InTree) directory (Cache.key l.release data) classes).run t).2) := by
  refine (InTree.run_bind_ok (InTree.run_lift _ t)).trans ?_
  generalize Cache.key l.release data = key
  generalize Loading.archiveClasses l.release data = loaded
  have hstill : ((Cache.get (m := InTree) directory key).run t).2 = t := by
    rw [Cache.run_get]
  rw [hstill]
  have hmiss : (do
      let classes ← ExceptT.mk (pure loaded)
      let _ ← ExceptT.lift (Cache.put directory key classes)
      return classes : ExceptT LoadFailure InTree (List DeclaredClass)).run.run t =
      match loaded with
      | .error failure => (.error failure, t)
      | .ok classes => (.ok classes, ((Cache.put (m := InTree) directory key classes).run t).2) := by
    cases loaded with
    | error failure => rfl
    | ok classes => exact (InTree.run_bind_ok rfl).trans (InTree.run_bind_ok (InTree.run_lift _ t))
  generalize ((Cache.get (m := InTree) directory key).run t).1 = found
  rcases found with failure | _ | classes
  · exact hmiss
  · exact hmiss
  · rfl

theorem run_loadArchive_some (release : Int) (name : Text) (directory : Path) {data : Bytes}
    (h : t.read p = .ok data) :
    ((Loader.mk release (some directory)).loadArchive (m := InTree) name p).run.run t =
      let run := ((Loader.mk release (some directory)).cachedClasses (m := InTree) directory data).run.run t
      ((run.1.mapError (LoadFailure.inArchive p)).map (Artifact.ofClasses name), run.2) := by
  have hask := run_ask (t := t) (r := t.read p) .openForHashing (x := Host.read p) rfl
  rw [h] at hask
  refine (InTree.run_bind_ok hask).trans ?_
  rcases hrun : ((Loader.mk release (some directory)).cachedClasses (m := InTree) directory data).run.run t
    with ⟨failure | classes, t'⟩
  · exact InTree.run_bind_error (InTree.run_adapt_error (LoadFailure.inArchive p) hrun)
  · exact InTree.run_bind_ok (InTree.run_adapt_ok (LoadFailure.inArchive p) hrun)

end Loader

/-! ## Sessions -/

namespace Cache

/-- What stands where the entry with a key is kept. -/
def entry? (t : FileTree) (directory : Path) (key : Key) : Option Bytes :=
  t.file? (t.placeOf (entryPath directory key))

/-- The octets hold no classes in the current layout. -/
def Unusable (content : Bytes) : Prop := ∃ failure, CacheEntry.classesOf content = .error failure

/-- There is no entry with the key, or it cannot be used. -/
def Idle (t : FileTree) (directory : Path) (key : Key) : Prop :=
  ∀ content, entry? t directory key = some content → Unusable content

/-- What is hashed when the artifact at a path is loaded for a release is among the inputs. -/
def Hashes (inputs : Int → Bytes → Prop) (t : FileTree) (release : Int) (p : Path) : Prop :=
  ∀ data, p.endsWith ".class" = false → t.read p = .ok data → inputs release data

/-- Different inputs have different digests. -/
def NoCollision (inputs : Int → Bytes → Prop) : Prop :=
  ∀ r d r' d', inputs r d → inputs r' d' →
    Digest.hexOf (keySeed r ++ d) = Digest.hexOf (keySeed r' ++ d') →
      keySeed r ++ d = keySeed r' ++ d'

/-- The trees that are met when artifacts are loaded with one cache, while archives, other files and
the cache itself change: an entry may become unusable at any time, but a usable one is written by a
load. -/
inductive Session (directory : Path) (inputs : Int → Bytes → Prop) : FileTree → Prop where
  | start {t : FileTree} (hidle : ∀ key, Idle t directory key) : Session directory inputs t
  | change {t t' : FileTree} (h : Session directory inputs t)
    (hkeeps : ∀ key, entry? t' directory key = entry? t directory key ∨ Idle t' directory key) :
    Session directory inputs t'
  | load {t : FileTree} (h : Session directory inputs t) (release : Int) (name : Text) (p : Path)
    (hhashes : Hashes inputs t release p) :
    Session directory inputs
      (((Loader.mk release (some directory)).loadNamed (m := InTree) name p).run.run t).2

/-- Every entry that can be used holds the classes of the archive that its key was computed from. -/
def Faithful (directory : Path) (inputs : Int → Bytes → Prop) (t : FileTree) : Prop :=
  ∀ release data content classes, inputs release data →
    entry? t directory (key release data) = some content →
    CacheEntry.classesOf content = .ok classes →
    Loading.archiveClasses release data = .ok classes

variable {directory : Path} {inputs : Int → Bytes → Prop} {t t' : FileTree}

theorem faithful_of_idle (h : ∀ key, Idle t directory key) : Faithful directory inputs t := by
  intro release data content classes _ hentry hclasses
  obtain ⟨failure, hfailure⟩ := h _ content hentry
  rw [hfailure] at hclasses
  contradiction

theorem Faithful.change (h : Faithful directory inputs t)
    (hkeeps : ∀ key, entry? t' directory key = entry? t directory key ∨ Idle t' directory key) :
    Faithful directory inputs t' := by
  intro release data content classes hinput hentry hclasses
  rcases hkeeps (key release data) with hsame | hidle
  · exact h release data content classes hinput (hsame ▸ hentry) hclasses
  · obtain ⟨failure, hfailure⟩ := hidle content hentry
    rw [hfailure] at hclasses
    contradiction

theorem NoCollision.eq_of_text_eq (h : NoCollision inputs) {r r' : Int} {d d' : Bytes}
    (hinput : inputs r d) (hinput' : inputs r' d') (heq : (key r d).text = (key r' d').text) :
    r = r' ∧ d = d' :=
  eq_of_keySeed_append_eq (h r d r' d' hinput hinput' heq)

/-- An archive whose classes are put into the cache is the only one whose entry changes. -/
theorem Faithful.put (h : Faithful directory inputs t) (hcollision : NoCollision inputs)
    {release : Int} {data : Bytes} {classes : List DeclaredClass} (hinput : inputs release data)
    (hclasses : Loading.archiveClasses release data = .ok classes)
    (hsurvives : (CacheEntry.ofClasses classes).Survives) :
    Faithful directory inputs
      ((Cache.put (m := InTree) directory (key release data) classes).run t).2 := by
  intro r d content found hother hentry hfound
  have hadds := adds_put t directory (key release data) classes
  unfold entry? at hentry
  rw [FileTree.placeOf_of_workingDirectory hadds.workingDirectory_eq] at hentry
  rcases hadds.file?_or _ _ hentry with hold | ⟨hplace, rfl⟩
  · exact h r d content found hother hold hfound
  · have hkey := (isName_key r d).eq_of_placeOf_eq (isName_key release data) hplace
    obtain ⟨rfl, rfl⟩ := hcollision.eq_of_text_eq hother hinput hkey
    have haccepted := Loading.accepted_of_archiveClasses hclasses
    rw [CacheEntry.classesOf_encode haccepted hsurvives] at hfound
    cases hfound
    exact hclasses

/-- The classes of every input are read back when they are written as an entry. -/
def Storable (inputs : Int → Bytes → Prop) : Prop :=
  ∀ release data classes, inputs release data →
    Loading.archiveClasses release data = .ok classes → (CacheEntry.ofClasses classes).Survives

theorem storable_of_fits
    (h : ∀ release data classes, inputs release data →
      Loading.archiveClasses release data = .ok classes →
        (CacheEntry.ofClasses classes).toPacked.Fits) : Storable inputs :=
  fun release data classes hinput hclasses =>
    CacheEntry.survives_of_fits (h release data classes hinput hclasses)

theorem Faithful.load (h : Faithful directory inputs t) (hcollision : NoCollision inputs)
    (hstorable : Storable inputs) (release : Int) (name : Text) (p : Path)
    (hhashes : Hashes inputs t release p) :
    Faithful directory inputs
      (((Loader.mk release (some directory)).loadNamed (m := InTree) name p).run.run t).2 := by
  rcases Loader.run_loadNamed_cases release name p t with ⟨r, hr⟩ | ⟨hclass, harchive⟩
  · rw [hr]
    exact h
  · rw [harchive]
    cases hread : t.read p with
    | error failure =>
      obtain ⟨e, he⟩ := Loader.run_loadArchive_unread release (some directory) name hread
      rw [he]
      exact h
    | ok data =>
      have hinput := hhashes data hclass hread
      rw [Loader.run_loadArchive_some release name directory hread, Loader.run_cachedClasses]
      split
      · exact h
      · split
        · exact h
        · rename_i classes hclasses
          exact h.put hcollision hinput hclasses (hstorable release data classes hinput hclasses)

theorem Session.faithful (h : Session directory inputs t) (hcollision : NoCollision inputs)
    (hstorable : Storable inputs) : Faithful directory inputs t := by
  induction h with
  | start hidle => exact faithful_of_idle hidle
  | change _ hkeeps ih => exact ih.change hkeeps
  | load _ release name p hhashes ih => exact ih.load hcollision hstorable release name p hhashes

/-- A load gives what it gives without a cache, if every entry holds the right classes. -/
theorem Faithful.loadNamed_eq (h : Faithful directory inputs t) {release : Int} {name : Text}
    {p : Path} (hhashes : Hashes inputs t release p) {a : Artifact}
    (hwithout : (((Loader.mk release none).loadNamed (m := InTree) name p).run.run t).1 = .ok a) :
    (((Loader.mk release (some directory)).loadNamed (m := InTree) name p).run.run t).1 = .ok a := by
  rcases Loader.run_loadNamed_cases release name p t with ⟨r, hr⟩ | ⟨hclass, harchive⟩
  · rw [hr] at hwithout ⊢
    exact hwithout
  · rw [harchive] at hwithout ⊢
    cases hread : t.read p with
    | error failure =>
      obtain ⟨e, he⟩ := Loader.run_loadArchive_unread release none name hread
      rw [he] at hwithout
      contradiction
    | ok data =>
      have hinput := hhashes data hclass hread
      rw [Loader.run_loadArchive_none release name hread] at hwithout
      rw [Loader.run_loadArchive_some release name directory hread, Loader.run_cachedClasses]
      cases hclasses : Loading.archiveClasses release data with
      | error failure =>
        rw [hclasses] at hwithout
        contradiction
      | ok classes =>
        rw [hclasses] at hwithout
        split
        · rename_i found hfound
          -- The entry was read at its place, so that it is the one the invariant speaks of.
          obtain ⟨content, hcontent, hheld⟩ := exists_of_get hfound
          have hright := h release data content found hinput (FileTree.file?_of_read hcontent) hheld
          have hsame : found = classes := Except.ok.inj (hright.symm.trans hclasses)
          rw [hsame]
          exact hwithout
        · exact hwithout

/-- A class that was built from what was read is restored from its snapshot whatever tables of
descriptors are used, and every decoded class is one; what was put into the cache is found there; and
however archives, releases and unusable entries change from one load to the next, a load that succeeds
without the cache gives the same artifact with it. -/
theorem session_transparent :
    (∀ (b : ClassBuilder) (tables : Interner), b.Accepted → tables.Sound →
      ∃ tables' : Interner, tables'.Sound ∧
        ((ClassSnapshot.ofClass b.build).restore (m := StateM Interner)).run.run tables =
          (.ok b.build, tables')) ∧
      (∀ (data : Bytes) (tables : Interner), tables.Sound →
        ∃ (r : Except DecodeFailure DeclaredClass) (tables' : Interner), tables'.Sound ∧
          (Decoder.decode (m := StateM Interner) data).run.run tables = (r, tables') ∧
          ∀ c, r = .ok c → ∃ b : ClassBuilder, b.Accepted ∧ b.build = c) ∧
      (∀ (directory : Path) (key : Key) (classes : List DeclaredClass) (t t' : FileTree),
        (∀ c ∈ classes, c.Accepted) → (CacheEntry.ofClasses classes).Survives →
        (put (m := InTree) directory key classes).run t = (.ok (), t') →
        (get (m := InTree) directory key).run t' = (.ok (some classes), t')) ∧
      ∀ (directory : Path) (inputs : Int → Bytes → Prop), NoCollision inputs → Storable inputs →
        ∀ t : FileTree, Session directory inputs t →
        ∀ (release : Int) (name : Text) (p : Path) (a : Artifact), Hashes inputs t release p →
        (((Loader.mk release none).loadNamed (m := InTree) name p).run.run t).1 = .ok a →
        (((Loader.mk release (some directory)).loadNamed (m := InTree) name p).run.run t).1 =
          .ok a := by
  refine ⟨?_, ?_, ?_, ?_⟩
  · intro b tables hb htables
    have haccepted : b.build.Accepted := ⟨b, hb, rfl⟩
    have hrestore := haccepted.restore (m := StateM Interner)
    exact hrestore tables htables
  · intro data tables htables
    obtain ⟨r, hr, haccepted⟩ := Decoder.ensures_decode (m := StateM Interner) data
    obtain ⟨tables', hsound, hrun⟩ := hr tables htables
    exact ⟨r, tables', hsound, hrun, haccepted⟩
  · intro directory key classes t t' haccepted hsurvives hput
    exact get_of_put haccepted hsurvives hput
  · intro directory inputs hcollision hstorable t hsession release name p a hhashes hwithout
    exact (hsession.faithful hcollision hstorable).loadNamed_eq hhashes hwithout

/-- A class with a call, as it could be decoded. -/
def sampleBuilder : ClassBuilder where
  name := ⟨"a.B"⟩
  parents := [⟨"java.lang.Object"⟩]
  methods := [⟨.classInit, 7, [⟨⟨"a.C"⟩, .classInit, 7, [⟨"java.lang.Error"⟩]⟩], []⟩]

theorem accepted_sampleBuilder : sampleBuilder.Accepted := by
  constructor
  case name => exact ⟨_, (rfl : ClassName.parse "a.B" = .ok _)⟩
  case parents =>
    intro c hc
    obtain rfl := List.mem_singleton.mp hc
    exact ⟨_, (rfl : ClassName.parse "java.lang.Object" = .ok _)⟩
  case loads => nofun
  case fields => nofun
  case methods =>
    intro d hd
    obtain rfl := List.mem_singleton.mp hd
    refine ⟨Method.accepted_classInit, ?_, nofun⟩
    intro c hc
    obtain rfl := List.mem_singleton.mp hc
    refine ⟨⟨_, (rfl : ClassName.parse "a.C" = .ok _)⟩, Method.accepted_classInit, ?_⟩
    intro e he
    obtain rfl := List.mem_singleton.mp he
    exact ⟨_, (rfl : ClassName.parse "java.lang.Error" = .ok _)⟩

/-- The archive of a class without members. -/
def sampleArchive : Bytes :=
  Archive.pack [⟨"a/B.class", ((Assembler.start "a/B" "java/lang/Object" []).run {}).2.bytes⟩]

/-- The class of the archive. -/
def sampleClass : DeclaredClass :=
  ((ClassBuilder.start ⟨"a.B"⟩).addParents [⟨"java.lang.Object"⟩]).build

theorem archiveClasses_sample : Loading.archiveClasses 8 sampleArchive = .ok [sampleClass] := by
  decide +kernel

/-- A machine with nothing but the archive. -/
def sampleTree : FileTree := { nodes := [([Text.ofString "a.jar"], .file sampleArchive)] }

/-- The machine after the archive was loaded with a cache. -/
def sampleTreeLoaded : FileTree :=
  (((Loader.mk 8 (some "c")).loadNamed (m := InTree) "a" "a.jar").run.run sampleTree).2

theorem fits_sampleClass : (CacheEntry.ofClasses [sampleClass]).toPacked.Fits := by decide +kernel

/-- A key of sixty-four digits, as those of archives are. -/
def sampleKey : Key where
  text := "9f86d081884c7d659a2feaa0c55ad015a3bf4f1b2b0b822cd15d6c15b0f00a08"

/-- The archive, for the release that it is loaded for. -/
def SampleInput (release : Int) (data : Bytes) : Prop := release = 8 ∧ data = sampleArchive

theorem hashes_sample {t : FileTree} (h : t.read "a.jar" = .ok sampleArchive) :
    Hashes SampleInput t 8 "a.jar" := by
  intro data _ hdata
  exact ⟨rfl, Except.ok.inj (hdata.symm.trans h)⟩

theorem session_sample : Session "c" SampleInput sampleTreeLoaded := by
  have hread : sampleTree.read "a.jar" = .ok sampleArchive := by decide +kernel
  refine .load (.start ?_) 8 "a" "a.jar" (hashes_sample hread)
  -- The one file of the machine is no entry, whatever key it is taken for.
  intro key content hentry
  have honly {l place : Location} {held : Bytes}
      (h : (FileTree.mk [(l, .file held)] []).file? place = some content) : content = held := by
    rw [FileTree.file?_eq_some_iff, FileTree.node?] at h
    split at h
    · cases h
    · rw [List.lookup_cons] at h
      split at h
      · cases h
        rfl
      · cases h
  rw [honly hentry]
  exact ⟨.malformed, by decide +kernel⟩

/-- The class is restored, what is put under a key is found, and the second load of the archive, which
finds its entry, gives its class. -/
theorem sample_transparent :
    (∃ tables : Interner, tables.Sound ∧
      ((ClassSnapshot.ofClass sampleBuilder.build).restore (m := StateM Interner)).run.run
        (.ofCapacity 1) = (.ok sampleBuilder.build, tables)) ∧
      (∃ t : FileTree, (put (m := InTree) "c" sampleKey [sampleBuilder.build]).run {} = (.ok (), t) ∧
        (get (m := InTree) "c" sampleKey).run t = (.ok (some [sampleBuilder.build]), t)) ∧
      (((Loader.mk 8 (some "c")).loadNamed (m := InTree) "a" "a.jar").run.run sampleTreeLoaded).1 =
        .ok (Artifact.ofClasses "a" [sampleClass]) := by
  have haccepted := accepted_sampleBuilder
  refine ⟨?_, ?_, ?_⟩
  · exact session_transparent.1 sampleBuilder (.ofCapacity 1) haccepted (Interner.sound_ofCapacity 1)
  · have hfits : (CacheEntry.ofClasses [sampleBuilder.build]).toPacked.Fits := by decide +kernel
    have hsurvives := CacheEntry.survives_of_fits hfits
    refine ⟨_, rfl, session_transparent.2.2.1 "c" sampleKey _ {} _ ?_ hsurvives rfl⟩
    intro c hc
    obtain rfl := List.mem_singleton.mp hc
    exact ⟨sampleBuilder, haccepted, rfl⟩
  · have hloaded : sampleTreeLoaded.read "a.jar" = .ok sampleArchive ∧
        (((Loader.mk 8 none).loadNamed (m := InTree) "a" "a.jar").run.run sampleTreeLoaded).1 =
          .ok (Artifact.ofClasses "a" [sampleClass]) := by
      decide +kernel
    have hcollision : NoCollision SampleInput := by
      rintro r d r' d' ⟨rfl, rfl⟩ ⟨rfl, rfl⟩ _
      rfl
    have hstorable : Storable SampleInput := by
      refine storable_of_fits ?_
      rintro release data classes ⟨rfl, rfl⟩ hclasses
      cases archiveClasses_sample.symm.trans hclasses
      exact fits_sampleClass
    exact session_transparent.2.2.2 "c" SampleInput hcollision hstorable sampleTreeLoaded
      session_sample 8 "a" "a.jar" _ (hashes_sample hloaded.1) hloaded.2

end Cache

end JvmLinkage
