import JvmLinkage.Loading.Layer
import JvmLinkage.Loading.Manifest
import JvmLinkage.Proofs.Descriptor.Methods
import Mathlib.Data.List.Nodup

/-!
# Which files are selected

A file is selected for a layer by its path alone, and the selected files stand in ascending order of
layers and paths. When no two files have the same path, this order leaves no choice: the selection
does not depend on the order in which the files were met.
-/

namespace JvmLinkage

theorem Text.not_mem_of_cut? {b : UInt8} {t l r : Text} (h : cut? b t = some (l, r)) : b ∉ l := by
  induction t generalizing l with
  | nil => cases h
  | cons c t ih =>
    rw [cut?] at h
    split at h
    case isTrue =>
      cases h
      simp
    case isFalse hne =>
      obtain ⟨⟨l', r'⟩, hcut, heq⟩ := Option.map_eq_some_iff.mp h
      cases heq
      simp [ih hcut, Ne.symm hne]

theorem Text.cut?_eq_some_iff {b : UInt8} {t l r : Text} :
    cut? b t = some (l, r) ↔ t = l ++ b :: r ∧ b ∉ l := by
  refine ⟨fun h => ⟨eq_append_of_cut? h, not_mem_of_cut? h⟩, ?_⟩
  rintro ⟨rfl, hl⟩
  exact cut?_append hl r

namespace Layer

/-! ## Layers of paths -/

/-- A path that ends like that of a class and is not the path of a description. -/
structure IsClass (path : Text) : Prop where
  ends : Text.ofString ".class" <:+ path
  ne_module : Path.base path ≠ "module-info.class"
  ne_package : Path.base path ≠ "package-info.class"

/-- A path is loaded in a layer: in the base layer if it is not below the directory of layers, and
otherwise, in an artifact with layers for later releases, in the layer that it names, as long as the
release has come to that. -/
inductive Applies (multiRelease : Bool) (release : Int) (path : Text) : Int → Prop where
  | base : IsClass path → ¬ Text.ofString "META-INF/versions/" <+: path →
      Applies multiRelease release path 0
  | later {numeral rest : Text} {n : Int} : IsClass path →
      path = "META-INF/versions/" ++ numeral ++ Ascii.slash :: rest → Ascii.slash ∉ numeral →
      Text.toInt numeral = .ok n → 9 ≤ n → n ≤ release → multiRelease = true →
      Applies multiRelease release path n

variable {multiRelease : Bool} {release n : Int} {path : Text}

theorem isClassPath_iff : isClassPath path = true ↔ IsClass path := by
  simp only [isClassPath, descriptionNames, Bool.and_eq_true, Bool.not_eq_true', Text.endsWith,
    List.isSuffixOf_iff_suffix, List.contains_eq_mem, List.mem_cons, List.not_mem_nil, or_false,
    decide_eq_false_iff_not, not_or]
  exact ⟨fun ⟨hends, hmodule, hpackage⟩ => ⟨hends, hmodule, hpackage⟩,
    fun h => ⟨h.ends, h.ne_module, h.ne_package⟩⟩

theorem ofPath?_eq_some_iff {below : Text} : ofPath? (directory ++ below) = some n ↔
    ∃ numeral rest, below = numeral ++ Ascii.slash :: rest ∧ Ascii.slash ∉ numeral ∧
      Text.toInt numeral = .ok n ∧ 9 ≤ n := by
  have hbelow : ((directory ++ below).afterStart? directory).getD (directory ++ below) = below := by
    simp [Text.afterStart?, Text.startsWith]
  have hfirst : firstRelease = 9 := rfl
  simp only [ofPath?, hbelow, hfirst, Option.bind_eq_bind, Option.bind_eq_some_iff, Prod.exists,
    Text.cut?_eq_some_iff]
  constructor
  · rintro ⟨numeral, rest, ⟨hsplit, hslash⟩, k, hk, hn⟩
    split at hn
    · contradiction
    · obtain rfl := Option.some.inj hn
      cases hint : Text.toInt numeral with
      | error failure => simp [hint, Except.toOption] at hk
      | ok k' =>
        obtain rfl : k' = k := by simpa [hint, Except.toOption] using hk
        exact ⟨numeral, rest, hsplit, hslash, hint, by omega⟩
  · rintro ⟨numeral, rest, hsplit, hslash, hint, hn⟩
    refine ⟨numeral, rest, ⟨hsplit, hslash⟩, n, by simp [hint, Except.toOption], ?_⟩
    rw [if_neg (by omega)]

theorem applicable?_eq_some_iff :
    applicable? multiRelease release path = some n ↔ Applies multiRelease release path n := by
  unfold applicable?
  by_cases hclass : IsClass path
  case neg =>
    have hnot : isClassPath path = false := by
      rw [Bool.eq_false_iff, ne_eq, isClassPath_iff]
      exact hclass
    simp only [hnot, Bool.not_false, if_true]
    refine ⟨nofun, ?_⟩
    rintro (h | h) <;> contradiction
  case pos =>
    simp only [isClassPath_iff.mpr hclass, Bool.not_true, Bool.false_eq_true, if_false]
    by_cases hbelow : directory <+: path
    case neg =>
      have hnot : path.startsWith directory = false := by
        rw [Bool.eq_false_iff, ne_eq, Text.startsWith, List.isPrefixOf_iff_prefix]
        exact hbelow
      simp only [hnot, Bool.false_eq_true, if_false, Option.some.injEq]
      constructor
      · rintro rfl
        exact .base hclass hbelow
      · rintro (_ | ⟨-, rfl⟩)
        · rfl
        · exact absurd ⟨_, (List.append_assoc ..).symm⟩ hbelow
    case pos =>
      obtain ⟨below, rfl⟩ := hbelow
      have hstarts : (directory ++ below).startsWith directory = true := by
        simp [Text.startsWith]
      simp only [hstarts, if_true]
      constructor
      · intro h
        split at h
        · rename_i k hk
          split at h
          · rename_i happlies
            obtain rfl := Option.some.inj h
            simp only [Bool.and_eq_true, decide_eq_true_eq] at happlies
            obtain ⟨numeral, rest, rfl, hslash, hint, hfirst⟩ := ofPath?_eq_some_iff.mp hk
            exact .later hclass (List.append_assoc ..).symm hslash hint hfirst happlies.2
              happlies.1.1
          · contradiction
        · contradiction
      · rintro (⟨-, hnot⟩ | ⟨-, hpath, hslash, hint, hfirst, hrelease, rfl⟩)
        · exact absurd (List.prefix_append ..) hnot
        · rename_i numeral rest
          have hsplit : below = numeral ++ Ascii.slash :: rest := by
            rw [List.append_assoc] at hpath
            exact List.append_cancel_left hpath
          rw [ofPath?_eq_some_iff.mpr ⟨numeral, rest, hsplit, hslash, hint, hfirst⟩]
          have hpositive : 0 < release := by omega
          simp [hpositive, hrelease]

/-- The manifest is not loaded in any layer. -/
theorem applicable?_manifest (multiRelease : Bool) (release : Int) :
    applicable? multiRelease release Manifest.path = none := by
  have hnot : isClassPath Manifest.path = false := by decide
  simp [applicable?, hnot]

/-! ## The order of layers and paths -/

/-- The comparison of layers, and of paths in a layer. -/
def cmp (a b : Int × Text) : Ordering := (compare a.1 b.1).then (compare a.2 b.2)

instance : Std.TransCmp cmp :=
  inferInstanceAs (Std.TransCmp (compareLex (compareOn Prod.fst) (compareOn Prod.snd)))

theorem before_trans {a b c : Int × Text} (hab : before a b = true) (hbc : before b c = true) :
    before a c = true := by
  change (cmp a c).isLE = true
  exact Std.TransCmp.isLE_trans hab hbc

theorem before_total (a b : Int × Text) : (before a b || before b a) = true := by
  have hswap : cmp b a = (cmp a b).swap := Std.OrientedCmp.eq_swap
  change ((cmp a b).isLE || (cmp b a).isLE) = true
  rw [hswap]
  cases cmp a b <;> rfl

theorem before_iff {k l : Int} {p q : Text} :
    before (k, p) (l, q) = true ↔ k < l ∨ k = l ∧ compare p q ≠ .gt := by
  have hint : (compare k l = .lt ↔ k < l) ∧ (compare k l = .eq ↔ k = l) :=
    ⟨Std.compare_eq_lt, Std.compare_eq_iff_eq⟩
  rw [before, ← hint.1, ← hint.2]
  cases compare k l <;> simp [Ordering.isLE_iff_ne_gt]

theorem before_antisymm {a b : Int × Text} (hab : before a b = true) (hba : before b a = true) :
    a = b := by
  have heq : cmp a b = .eq := Std.OrientedCmp.isLE_antisymm hab hba
  obtain ⟨hlayer, hpath⟩ := Ordering.then_eq_eq.mp heq
  exact Prod.ext (Std.LawfulEqOrd.eq_of_compare hlayer) (Std.LawfulEqOrd.eq_of_compare hpath)

/-! ## The selection -/

variable {α β : Type} {files others : List (SourceFile α)}

/-- A selected file comes before another one. -/
def Precedes (a b : Int × SourceFile α) : Prop := before (a.1, a.2.path) (b.1, b.2.path) = true

theorem mem_selectWithLayer {f : SourceFile α} :
    (n, f) ∈ selectWithLayer multiRelease release files ↔
      f ∈ files ∧ Applies multiRelease release f.path n := by
  rw [selectWithLayer, List.mem_mergeSort, List.mem_filterMap]
  constructor
  · rintro ⟨g, hg, hlayer⟩
    obtain ⟨k, hk, heq⟩ := Option.map_eq_some_iff.mp hlayer
    obtain ⟨rfl, rfl⟩ := Prod.mk.inj heq
    exact ⟨hg, applicable?_eq_some_iff.mp hk⟩
  · rintro ⟨hf, happlies⟩
    exact ⟨f, hf, by rw [applicable?_eq_some_iff.mpr happlies, Option.map_some]⟩

theorem pairwise_selectWithLayer (multiRelease : Bool) (release : Int)
    (files : List (SourceFile α)) :
    (selectWithLayer multiRelease release files).Pairwise Precedes := by
  apply List.pairwise_mergeSort
  · exact fun a b c hab hbc => before_trans hab hbc
  · exact fun a b => before_total _ _

/-- Files with different paths are selected in the same order, whatever the order is in which they
are given. -/
theorem select_perm (hdistinct : (files.map (·.path)).Nodup) (h : files.Perm others) :
    select multiRelease release files = select multiRelease release others := by
  unfold select
  congr 1
  refine List.Perm.eq_of_pairwise ?_ (pairwise_selectWithLayer multiRelease release files)
    (pairwise_selectWithLayer multiRelease release others) ?_
  · rintro ⟨k, f⟩ ⟨l, g⟩ hf hg hfg hgf
    obtain ⟨rfl, hpath⟩ := Prod.mk.inj (before_antisymm hfg hgf)
    have hf' := (mem_selectWithLayer.mp hf).1
    have hg' := h.mem_iff.mpr (mem_selectWithLayer.mp hg).1
    rw [List.inj_on_of_nodup_map hdistinct hf' hg' hpath]
  · exact (List.mergeSort_perm ..).trans ((h.filterMap _).trans (List.mergeSort_perm ..).symm)

/-- The selection looks at nothing but paths. -/
theorem select_map (content : α → β) (files : List (SourceFile α)) :
    select multiRelease release (files.map fun f => ⟨f.path, content f.source⟩) =
      (select multiRelease release files).map fun f => ⟨f.path, content f.source⟩ := by
  let move (entry : Int × SourceFile α) : Int × SourceFile β :=
    (entry.1, ⟨entry.2.path, content entry.2.source⟩)
  have hmove : selectWithLayer multiRelease release
      (files.map fun f => ⟨f.path, content f.source⟩) =
        (selectWithLayer multiRelease release files).map move := by
    have hsort (entries : List (Int × SourceFile α)) :
        (entries.map move).mergeSort (fun a b => before (a.1, a.2.path) (b.1, b.2.path)) =
          (entries.mergeSort fun a b => before (a.1, a.2.path) (b.1, b.2.path)).map move := by
      symm
      apply List.map_mergeSort
      exact fun _ _ _ _ => rfl
    rw [selectWithLayer, selectWithLayer, ← hsort, List.filterMap_map, List.map_filterMap]
    congr 1
    refine List.filterMap_congr fun f _ => ?_
    cases happlies : applicable? multiRelease release f.path <;> simp [happlies, move]
  rw [select, hmove, select, List.map_map, List.map_map]
  rfl

theorem select_without_manifest (files : List (SourceFile α)) :
    select multiRelease release (files.filter fun f => f.path ≠ Manifest.path) =
      select multiRelease release files := by
  unfold select selectWithLayer
  congr 2
  rw [List.filterMap_filter]
  refine List.filterMap_congr fun f _ => ?_
  by_cases hpath : f.path = Manifest.path
  · simp [hpath, applicable?_manifest]
  · simp [hpath]

end Layer

end JvmLinkage
