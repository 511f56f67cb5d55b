import JvmLinkage.Files.Tree
import JvmLinkage.Proofs.Cache.Entry
import JvmLinkage.Proofs.Descriptor.Methods
import JvmLinkage.Proofs.Files.Tree
import JvmLinkage.Proofs.Text.Decimal
import Mathlib.Data.List.Basic

/-!
# Entries in the directory of the cache

Different keys have different places, and the content that keys are computed from tells the release
and the archive. What is put under a key is found there, and no other file changes.
-/

namespace JvmLinkage

/-! ## Keys and places of entries -/

namespace Cache

theorem hexDigit_ne_slash (n : Nat) (h : n < 16) : Text.hexDigit n ≠ Ascii.slash := by
  revert n
  decide

theorem slash_not_mem_hex (count n : Nat) : Ascii.slash ∉ Text.hex count n := by
  induction count generalizing n with
  | zero => simp [Text.hex]
  | succ count ih =>
    have hlast := hexDigit_ne_slash (n % 16) (Nat.mod_lt n (by decide))
    simp [Text.hex, ih, Ne.symm hlast]

/-- A key can be part of the name of a file. -/
def Key.IsName (key : Key) : Prop := Ascii.slash ∉ key.text

theorem isName_key (release : Int) (data : Bytes) : (key release data).IsName := by
  simp [Key.IsName, key, Digest.hexOf, Digest.State.words, slash_not_mem_hex]

theorem Key.IsName.proper {key : Key} (h : key.IsName) : Path.Proper (key.text ++ ".msgpack") := by
  have hlength : 2 < (key.text ++ Text.ofString ".msgpack").length := by
    have hname : (Text.ofString ".msgpack").length = 8 := by decide
    rw [List.length_append, hname]
    omega
  constructor
  case ne_nil => exact List.ne_nil_of_length_pos (by omega)
  case ne_here =>
    intro heq
    rw [heq] at hlength
    exact absurd hlength (by decide)
  case ne_above =>
    intro heq
    rw [heq] at hlength
    exact absurd hlength (by decide)
  case not_mem =>
    have hname : Ascii.slash ∉ Text.ofString ".msgpack" := by decide
    have hkey : Ascii.slash ∉ key.text := h
    simpa [hkey] using hname

theorem Key.IsName.exists_names {key : Key} (h : key.IsName) (directory : Path) :
    ∃ first, Path.names (entryPath directory key) = first ++ [key.text ++ ".msgpack"] := by
  have htake : (key.text.take 2).isEmpty = false := by
    have hlong := key.two_le_length
    cases htext : key.text with
    | nil => simp [htext] at hlong
    | cons b text => rfl
  have hroot : Path.root = [Ascii.slash] := by decide
  cases directory with
  | nil =>
    have hpath : entryPath [] key =
        Path.clean (key.text.take 2 ++ Ascii.slash :: (key.text ++ ".msgpack")) := by
      simp [entryPath, Path.join, List.dropWhile, htake, Text.join, List.intercalate, hroot]
    rw [hpath]
    exact Path.exists_names_clean h.proper _
  | cons b directory =>
    have hpath : entryPath (b :: directory) key =
        Path.clean ((b :: directory ++ Ascii.slash :: key.text.take 2)
          ++ Ascii.slash :: (key.text ++ ".msgpack")) := by
      simp [entryPath, Path.join, List.dropWhile, Text.join, List.intercalate, hroot]
    rw [hpath]
    exact Path.exists_names_clean h.proper _

/-- Entries with different keys are kept at different places. -/
theorem Key.IsName.eq_of_placeOf_eq {t : FileTree} {directory : Path} {key other : Key}
    (h : key.IsName) (hother : other.IsName)
    (heq : t.placeOf (entryPath directory key) = t.placeOf (entryPath directory other)) :
    key.text = other.text := by
  obtain ⟨first, hfirst⟩ := h.exists_names directory
  obtain ⟨others, hothers⟩ := hother.exists_names directory
  have hlast : some (key.text ++ Text.ofString ".msgpack") =
      some (other.text ++ Text.ofString ".msgpack") := by
    rw [← FileTree.getLast?_placeOf h.proper hfirst, heq,
      FileTree.getLast?_placeOf hother.proper hothers]
  exact List.append_cancel_right (Option.some.inj hlast)

/-- What keys are computed from tells the release and the archive. -/
theorem eq_of_keySeed_append_eq {release other : Int} {data others : Bytes}
    (h : keySeed release ++ data = keySeed other ++ others) : release = other ∧ data = others := by
  have hnewline : Text.ofString "\n" = [Ascii.newline] := by decide
  simp only [keySeed, hnewline, List.append_assoc, List.append_cancel_left_eq,
    List.singleton_append] at h
  obtain ⟨hrelease, hdata⟩ := Text.eq_of_append_cons_eq (Text.newline_not_mem_ofInt release)
    (Text.newline_not_mem_ofInt other) h
  exact ⟨Text.ofInt_injective hrelease, hdata⟩

/-! ## Finding what was put -/

variable {t t' : FileTree} {directory : Path} {key : Key} {classes : List DeclaredClass}

theorem run_get (t : FileTree) (directory : Path) (key : Key) :
    (get (m := InTree) directory key).run t =
      (match t.read (entryPath directory key) with
        | .ok data => some <$> CacheEntry.classesOf data
        | .error failure =>
          if failure.reason = .missing then .ok none else .error (.unreadable failure), t) := by
  change ((match t.read (entryPath directory key) with
    | .ok data => return some <$> CacheEntry.classesOf data
    | .error failure =>
      if failure.reason = .missing then return .ok none
      else return .error (.unreadable failure) : InTree _)).run t = _
  split
  · rfl
  · split <;> rfl

theorem exists_of_get
    (h : ((get (m := InTree) directory key).run t).1 = .ok (some classes)) :
    ∃ content, t.read (entryPath directory key) = .ok content ∧
      CacheEntry.classesOf content = .ok classes := by
  rw [run_get] at h
  cases hread : t.read (entryPath directory key) with
  | error failure =>
    rw [hread] at h
    dsimp only at h
    split at h
    · cases h
    · cases h
  | ok content =>
    rw [hread] at h
    refine ⟨content, rfl, ?_⟩
    have hheld : some <$> CacheEntry.classesOf content = .ok (some classes) := h
    cases hfound : CacheEntry.classesOf content with
    | error failure => simp [hfound] at hheld
    | ok found => simpa [hfound] using hheld

theorem run_put (t : FileTree) (directory : Path) (key : Key) (classes : List DeclaredClass) :
    (put (m := InTree) directory key classes).run t =
      match t.makeDirectories (Path.directory (entryPath directory key)) with
      | .error failure => (.error failure, t)
      | .ok made =>
        match made.write (entryPath directory key) (CacheEntry.ofClasses classes).encode with
        | .error failure => (.error failure, made)
        | .ok written => (.ok (), written) := by
  unfold put
  rw [StateT.run_bind]
  change (InTree.change (·.makeDirectories _)).run t >>= _ = _
  rw [InTree.run_change]
  cases t.makeDirectories (Path.directory (entryPath directory key)) with
  | error failure => rfl
  | ok made =>
    exact InTree.run_change (·.write (entryPath directory key) _) made

/-- Putting adds one file at most, which is the entry. -/
theorem adds_put (t : FileTree) (directory : Path) (key : Key) (classes : List DeclaredClass) :
    t.Adds (t.placeOf (entryPath directory key)) (CacheEntry.ofClasses classes).encode
      ((put (m := InTree) directory key classes).run t).2 := by
  rw [run_put]
  split
  · exact (FileTree.SameFiles.refl t).adds _ _
  · rename_i made hmade
    have hsame := FileTree.sameFiles_of_makeDirectories hmade
    split
    · exact hsame.adds _ _
    · rename_i written hwritten
      have hadds := FileTree.adds_of_write hwritten
      rw [FileTree.placeOf_of_workingDirectory hsame.workingDirectory_eq] at hadds
      exact .of_sameFiles hsame hadds

/-- What was put under a key is found under it. -/
theorem get_of_put (haccepted : ∀ c ∈ classes, c.Accepted)
    (hsurvives : (CacheEntry.ofClasses classes).Survives)
    (h : (put (m := InTree) directory key classes).run t = (.ok (), t')) :
    (get (m := InTree) directory key).run t' = (.ok (some classes), t') := by
  rw [run_put] at h
  split at h
  · cases h
  · split at h
    · cases h
    · rename_i hwritten
      cases h
      rw [run_get, FileTree.read_of_write hwritten]
      simp [CacheEntry.classesOf_encode haccepted hsurvives]

end Cache

end JvmLinkage
