import JvmLinkage.Report.Filter
import JvmLinkage.Proofs.Text.Blanks
import JvmLinkage.Proofs.Text.Parts
import Mathlib.Logic.ExistsUnique

/-!
# What a filter keeps

A pattern stands for a package by whole components, although the two are compared octet by octet.
A filter keeps the conflicts that its three lists of patterns allow, whether or not it is asked
about each of them, and what filters keep does not depend on their order.
-/

namespace JvmLinkage

/-! ## The package of a class -/

/-- The package of a class is what precedes its simple name, and the default package has no name. -/
inductive ClassName.InPackage (c : ClassName) : Text → Prop where
  | named {package simple : Text} (h : Ascii.dot ∉ simple)
      (hname : c.dotted = package ++ Ascii.dot :: simple) : InPackage c package
  | default (h : Ascii.dot ∉ c.dotted) : InPackage c []

theorem ClassName.inPackage_iff {c : ClassName} {package : Text} :
    c.InPackage package ↔ package = c.package := by
  constructor
  · rintro (⟨h, hname⟩ | h)
    · rw [ClassName.package, hname, Text.cutLast?_append_cons package h]
    · rw [ClassName.package, Text.cutLast?_eq_none_iff.mpr h]
  · rintro rfl
    rw [ClassName.package]
    cases hcut : c.dotted.cutLast? Ascii.dot with
    | none => exact .default (Text.cutLast?_eq_none_iff.mp hcut)
    | some parts =>
      obtain ⟨h, hname⟩ := Text.of_cutLast? hcut
      exact .named h hname

namespace Filter

variable {f : Filter} {pattern package name : Text}

/-! ## What a pattern stands for -/

/-- A pattern names a package if it is that name with blanks around it and at most one dot after it,
the last dot being no part of the name. -/
def Names (pattern name : Text) : Prop :=
  ∃ trimmed, Text.Trims pattern trimmed ∧
    (trimmed = name ++ [Ascii.dot] ∨ trimmed = name ∧ ¬[Ascii.dot] <:+ trimmed)

/-- A pattern stands for the package that it names and, if asked for, for those whose components
begin with the components of that one. -/
def StandsFor (f : Filter) (pattern package : Text) : Prop :=
  ∃ name, Names pattern name ∧ (package = name ∨
    f.includeSubpackages = true ∧ Text.splitOn Ascii.dot name <+: Text.splitOn Ascii.dot package)

theorem names_iff : Names pattern name ↔ name = normal pattern := by
  have hdot : (Text.ofString ".") = [Ascii.dot] := by decide
  simp only [Names, Text.trims_iff, exists_eq_left, normal, Text.beforeEnd?, Text.endsWith, hdot,
    List.isSuffixOf_iff_suffix]
  by_cases h : [Ascii.dot] <:+ pattern.trim
  · obtain ⟨front, hfront⟩ := h
    simp [← hfront, eq_comm]
  · have hne : pattern.trim ≠ name ++ [Ascii.dot] := fun heq => h (heq ▸ List.suffix_append _ _)
    simp [h, hne, eq_comm]

theorem startsWith_dot_iff :
    package.startsWith (name ++ ".") = true ↔ name ++ [Ascii.dot] <+: package := by
  have hdot : (Text.ofString ".") = [Ascii.dot] := by decide
  rw [Text.startsWith, List.isPrefixOf_iff_prefix, hdot]

theorem matchesOne_iff : f.matchesOne package pattern = true ↔ f.StandsFor pattern package := by
  simp only [matchesOne, StandsFor, names_iff, exists_eq_left, Bool.or_eq_true, decide_eq_true_eq,
    Bool.and_eq_true, startsWith_dot_iff, Text.splitOn_prefix_iff]
  by_cases h : package = normal pattern <;> simp [h]

theorem matchesAny_iff {patterns : List Text} :
    f.matchesAny package patterns = true ↔ ∃ pattern ∈ patterns, f.StandsFor pattern package := by
  simp only [matchesAny, List.any_eq_true, matchesOne_iff]

/-- A package for which a pattern stands has all components of the one that the pattern names. -/
theorem StandsFor.components (h : f.StandsFor pattern package) (hname : Names pattern name) :
    Text.splitOn Ascii.dot name <+: Text.splitOn Ascii.dot package := by
  obtain ⟨name', hname', heq⟩ := h
  obtain rfl : name = name' := (names_iff.mp hname).trans (names_iff.mp hname').symm
  obtain rfl | ⟨-, hprefix⟩ := heq
  · exact List.prefix_refl _
  · exact hprefix

/-- A name that goes on after the package named, but not with a dot, is one of another package. -/
theorem not_standsFor_append {b : UInt8} {rest : Text} (hname : Names pattern name)
    (hb : b ≠ Ascii.dot) : ¬f.StandsFor pattern (name ++ b :: rest) := by
  intro h
  obtain heq | ⟨more, hmore⟩ := Text.splitOn_prefix_iff.mp (h.components hname)
  · simp at heq
  · rw [List.append_assoc, List.singleton_append] at hmore
    exact hb (List.cons.inj (List.append_cancel_left hmore)).1.symm

/-! ## What is kept -/

/-- A filter allows a reference from one package to another one. -/
structure Allows (f : Filter) (source target : Text) : Prop where
  targeted : f.targetSource = [] ∨ ∃ pattern ∈ f.targetSource, f.StandsFor pattern source
  source : ∀ pattern ∈ f.ignoreSource, ¬f.StandsFor pattern source
  destination : ∀ pattern ∈ f.ignoreDestination, ¬f.StandsFor pattern target

theorem keeps_iff {c : Conflict} : f.keeps c = true ↔
    f.Allows c.dependency.fromClass.package c.dependency.targetClass.package := by
  simp only [keeps, Bool.and_eq_true, Bool.or_eq_true, Bool.not_eq_true', ← Bool.not_eq_true,
    List.isEmpty_iff, matchesAny_iff, not_exists, not_and]
  constructor
  · rintro ⟨⟨htargeted, hsource⟩, hdestination⟩
    exact ⟨htargeted, hsource, hdestination⟩
  · rintro ⟨htargeted, hsource, hdestination⟩
    exact ⟨⟨htargeted, hsource⟩, hdestination⟩

theorem apply_idem (f : Filter) (conflicts : List Conflict) :
    f.apply (f.apply conflicts) = f.apply conflicts := by
  simp only [apply_eq_filter, List.filter_filter, Bool.and_self]

theorem apply_comm (f g : Filter) (conflicts : List Conflict) :
    f.apply (g.apply conflicts) = g.apply (f.apply conflicts) := by
  simp only [apply_eq_filter, List.filter_filter, Bool.and_comm]

/-- A filter keeps the conflicts between packages that it allows, in order. Patterns stand for
packages by whole components, and filters can be applied again and in any order. -/
theorem keeps_by_components (f : Filter) :
    (∀ conflicts, f.apply conflicts = conflicts.filter f.keeps) ∧
      (∀ below c, Filter.keeps { includeSubpackages := below } c = true) ∧
      (∀ conflicts, f.apply (f.apply conflicts) = f.apply conflicts) ∧
      (∀ (g : Filter) conflicts, f.apply (g.apply conflicts) = g.apply (f.apply conflicts)) ∧
      (∀ c source target, c.dependency.fromClass.InPackage source →
        c.dependency.targetClass.InPackage target → (f.keeps c = true ↔ f.Allows source target)) ∧
      (∀ pattern, ∃! name, Names pattern name) ∧
      ∀ pattern name, Names pattern name →
        (∀ package, f.StandsFor pattern package →
          Text.splitOn Ascii.dot name <+: Text.splitOn Ascii.dot package) ∧
        ∀ b rest, b ≠ Ascii.dot → ¬f.StandsFor pattern (name ++ b :: rest) := by
  refine ⟨apply_eq_filter f, fun _ c => keeps_of_isEmpty rfl c, apply_idem f, apply_comm f, ?_, ?_,
    ?_⟩
  · intro c source target hsource htarget
    rw [ClassName.inPackage_iff.mp hsource, ClassName.inPackage_iff.mp htarget, keeps_iff]
  · exact fun pattern => ⟨normal pattern, names_iff.mpr rfl, fun name h => names_iff.mp h⟩
  · exact fun pattern name hname =>
      ⟨fun package h => h.components hname, fun b rest hb => not_standsFor_append hname hb⟩

/-- The conflict of a class that refers to another one. -/
def sampleConflict (source target : Text) : Conflict where
  category := .classNotFound
  dependency := ⟨⟨source⟩, .classInit, 0, ⟨target⟩, none, none⟩
  usedBy := "app.jar"
  existsIn := []
  reason := []

/-- Passes over what classes of the default package refer to, and over what is missing from a package
or from one below it. -/
def sample : Filter where
  ignoreSource := [" . "]
  ignoreDestination := [" com.acme. "]
  includeSubpackages := true

/-- A dot between blanks names the default package and leaves `app` alone. The other pattern stands for
`com.acme.sub`, but not for `com.acmex`, which only begins with the same letters. -/
theorem sample_keeps_by_components :
    Names " . " [] ∧ Names " com.acme. " "com.acme" ∧
      sample.keeps (sampleConflict "Main" "com.acmex.Tool") = false ∧
      sample.keeps (sampleConflict "app.Main" "com.acme.sub.Part") = false ∧
      sample.keeps (sampleConflict "app.Main" "com.acmex.Tool") = true ∧
      ¬sample.StandsFor " . " "app" ∧ sample.StandsFor " com.acme. " "com.acme.sub" ∧
      ¬sample.StandsFor " com.acme. " "com.acmex" := by
  obtain ⟨-, -, -, -, hkeeps, -, hparts⟩ := keeps_by_components sample
  have hdefault : Names " . " [] := names_iff.mpr (by decide +kernel)
  have hacme : Names " com.acme. " "com.acme" := names_iff.mpr (by decide +kernel)
  have hnone : ¬sample.StandsFor " . " "app" := (hparts _ _ hdefault).2 0x61 "pp" (by decide)
  have hother : ¬sample.StandsFor " com.acme. " "com.acmex" :=
    (hparts _ _ hacme).2 0x78 [] (by decide)
  have hbelow : sample.StandsFor " com.acme. " "com.acme.sub" :=
    ⟨"com.acme", hacme, .inr ⟨rfl, by decide +kernel⟩⟩
  have hmain : ClassName.InPackage ⟨"Main"⟩ [] := .default (by decide)
  have happ : ClassName.InPackage ⟨"app.Main"⟩ "app" := .named (by decide) rfl
  have hsub : ClassName.InPackage ⟨"com.acme.sub.Part"⟩ "com.acme.sub" := .named (by decide) rfl
  have hacmex : ClassName.InPackage ⟨"com.acmex.Tool"⟩ "com.acmex" := .named (by decide) rfl
  refine ⟨hdefault, hacme, ?_, ?_, ?_, hnone, hbelow, hother⟩
  · rw [← Bool.not_eq_true, hkeeps (sampleConflict "Main" "com.acmex.Tool") _ _ hmain hacmex]
    exact fun h => h.source " . " (List.mem_singleton.mpr rfl) ⟨[], hdefault, .inl rfl⟩
  · rw [← Bool.not_eq_true, hkeeps (sampleConflict "app.Main" "com.acme.sub.Part") _ _ happ hsub]
    exact fun h => h.destination " com.acme. " (List.mem_singleton.mpr rfl) hbelow
  · rw [hkeeps (sampleConflict "app.Main" "com.acmex.Tool") _ _ happ hacmex]
    exact ⟨.inl rfl, List.forall_mem_singleton.mpr hnone, List.forall_mem_singleton.mpr hother⟩

end Filter

end JvmLinkage
