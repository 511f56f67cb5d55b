import JvmLinkage.Text.Layout
import JvmLinkage.Proofs.Text.Blanks
import Mathlib.Data.List.Chain

/-!
# Wrapped texts

Wrapping neither loses nor adds a word. A line is too wide only if it is a single word, and it ends
only where the next word would make it too wide.
-/

namespace JvmLinkage.Text

/-! ## Words in lines -/

/-- The width of words that stand on one line. -/
def lineWidth (line : List Text) : Nat := (join " " line).length

/-- Words are set in lines, each of which takes words as long as they fit. -/
structure Sets (width : Nat) (ws : List Text) (lines : List (List Text)) : Prop where
  flatten : lines.flatten = ws
  nonempty : [] ∉ lines
  fits : ∀ line ∈ lines, lineWidth line ≤ width ∨ line.length = 1
  greedy : lines.IsChain fun line next => ∃ w, next.head? = some w ∧ width < lineWidth (line ++ [w])

variable {width : Nat} {line ws : List Text}

/-- A line has one space fewer than words. -/
theorem lineWidth_add_one (h : line ≠ []) :
    lineWidth line + 1 = line.flatten.length + line.length := by
  induction line with
  | nil => contradiction
  | cons w line ih =>
    cases line with
    | nil => simp [lineWidth]
    | cons next line =>
      have hspace : (ofString " ").length = 1 := by decide
      have hrest := ih (by simp)
      rw [lineWidth] at hrest
      rw [lineWidth, join_cons_cons, List.length_append, List.length_append, hspace]
      simp only [List.flatten_cons, List.length_append, List.length_cons] at hrest ⊢
      omega

/-- Words are set from a line at hand on, if that line fits or is a single word. -/
theorem exists_sets_wrapFrom (h : line ≠ []) (hfits : lineWidth line ≤ width ∨ line.length = 1) :
    ∃ more rest, Sets width (line ++ ws) ((line ++ more) :: rest) ∧
      wrapFrom width line line.flatten.length ws =
        ((line ++ more) :: rest).map (join " ") := by
  -- The line at hand is closed before the next word or takes it. Both the line that the word starts
  -- and the longer line fit or are a single word.
  induction ws generalizing line with
  | nil =>
    refine ⟨[], [], ⟨by simp, by simpa using h.symm, by simpa using hfits, .singleton _⟩, ?_⟩
    rw [wrapFrom, List.append_nil]
    rfl
  | cons w ws ih =>
    have hnext : lineWidth (line ++ [w]) = line.flatten.length + w.length + line.length := by
      have hwidth : lineWidth (line ++ [w]) + 1 = _ := lineWidth_add_one (by simp)
      simp only [List.flatten_append, List.flatten_singleton, List.length_append,
        List.length_singleton] at hwidth
      omega
    have hline : (!line.isEmpty) = true := by simpa using h
    simp only [wrapFrom, hline, Bool.and_true, decide_eq_true_eq, ← hnext]
    split
    case isTrue hfull =>
      obtain ⟨more, rest, hsets, hwrap⟩ := @ih [w] (by simp) (.inr rfl)
      refine ⟨[], ([w] ++ more) :: rest, ⟨?_, ?_, ?_, ?_⟩, ?_⟩
      · rw [List.append_nil, List.flatten_cons, hsets.flatten]
        rfl
      · rw [List.append_nil, List.mem_cons, not_or]
        exact ⟨h.symm, hsets.nonempty⟩
      · rw [List.append_nil]
        exact List.forall_mem_cons.mpr ⟨hfits, hsets.fits⟩
      · rw [List.append_nil]
        exact .cons_cons ⟨w, rfl, hfull⟩ hsets.greedy
      · rw [List.append_nil, List.map_cons, ← hwrap, List.flatten_singleton]
    case isFalse hfull =>
      obtain ⟨more, rest, hsets, hwrap⟩ :=
        @ih (line ++ [w]) (by simp) (.inl (Nat.not_lt.mp hfull))
      refine ⟨w :: more, rest, ?_, ?_⟩
      · simpa using hsets
      · simpa using hwrap

/-- The words of a text are set in the lines that wrapping it gives. -/
theorem exists_sets_wrap {t : Text} {width : Int} (h : leastWrap ≤ width) (hne : words t ≠ []) :
    ∃ lines, Sets width.toNat (words t) lines ∧ wrap width t = lines.map (join " ") := by
  obtain ⟨w, ws, hwords⟩ := List.exists_cons_of_ne_nil hne
  obtain ⟨more, rest, hsets, hwrap⟩ :=
    @exists_sets_wrapFrom width.toNat [w] ws (by simp) (.inr rfl)
  refine ⟨([w] ++ more) :: rest, hwords ▸ hsets, ?_⟩
  rw [← hwrap, wrap, if_neg (by omega), hwords]
  simp [wrapFrom]

/-! ## Lines of a wrapped text -/

/-- Lines are a text wrapped at a width: they hold its words in order, each line as many as fit, and
a text without words gives one empty line. -/
structure Wraps (width : Int) (t : Text) (lines : List Text) : Prop where
  words : lines.flatMap words = t.words
  joined : ∀ line ∈ lines, line = join " " line.words
  fits : ∀ line ∈ lines,
    (line.length : Int) ≤ width ∨ line.words = [line] ∧ width < (line.length : Int)
  empty : t.words = [] → lines = [[]]
  nonempty : t.words ≠ [] → [] ∉ lines
  greedy : lines.IsChain fun line next =>
    ∃ w, next.words.head? = some w ∧ width < ((line ++ " " ++ w : Text).length : Int)

theorem Sets.words_line {t : Text} {lines : List (List Text)} (h : Sets width t.words lines) :
    ∀ line ∈ lines, (join " " line).words = line := fun line hline =>
  words_join fun _ hw => isWord_of_mem_words (t := t)
    (h.flatten ▸ List.mem_flatten.mpr ⟨line, hline, hw⟩)

/-- Lines that are set from the words of a text are that text, wrapped. -/
theorem Sets.wraps {t : Text} {width : Int} (hwidth : 0 ≤ width) {lines : List (List Text)}
    (hne : t.words ≠ []) (h : Sets width.toNat t.words lines) :
    Wraps width t (lines.map (join " ")) where
  words := by
    rw [List.flatMap_map, List.flatMap_congr h.words_line, List.flatMap_id', h.flatten]
  joined := by
    refine List.forall_mem_map.mpr fun line hline => ?_
    rw [h.words_line line hline]
  fits := by
    refine List.forall_mem_map.mpr fun line hline => ?_
    rw [h.words_line line hline]
    by_cases hwide : width < ((join " " line).length : Int)
    · obtain hfits | hone := h.fits line hline
      · rw [lineWidth] at hfits
        omega
      · obtain ⟨w, rfl⟩ := List.length_eq_one_iff.mp hone
        exact .inr ⟨by rw [join_singleton], hwide⟩
    · exact .inl (Int.not_lt.mp hwide)
  empty hnil := absurd hnil hne
  nonempty _ hmem := by
    obtain ⟨line, hline, hjoin⟩ := List.mem_map.mp hmem
    have hnil := h.words_line line hline
    rw [hjoin, words_nil] at hnil
    exact h.nonempty (hnil ▸ hline)
  greedy := by
    refine (List.isChain_map _).mpr (h.greedy.imp_of_mem_imp ?_)
    rintro line next hline hnext ⟨w, hhead, hwide⟩
    have hline' : line ≠ [] := fun hnil => h.nonempty (hnil ▸ hline)
    refine ⟨w, by rw [h.words_line next hnext, hhead], ?_⟩
    rw [← join_append_singleton " " w hline']
    rw [lineWidth] at hwide
    omega

/-- A text wrapped at a width has its words in order, each line as many as fit. -/
theorem wrap_lossless_greedy :
    (∀ t ws, HasWords t ws ↔ ws = words t) ∧
      ∀ t width, leastWrap ≤ width → Wraps width t (wrap width t) := by
  refine ⟨fun t ws => hasWords_iff, fun t width h => ?_⟩
  have hwidth : 0 ≤ width := by
    have hleast : leastWrap = 10 := rfl
    omega
  by_cases hne : words t = []
  · have hwrap : wrap width t = [[]] := by
      rw [wrap, if_neg (Int.not_lt.mpr h), hne]
      rfl
    rw [hwrap]
    exact ⟨by simp [hne], by simp, by simp [hwidth], fun _ => rfl, absurd hne, .singleton _⟩
  · obtain ⟨lines, hsets, hwrap⟩ := exists_sets_wrap h hne
    rw [hwrap]
    exact hsets.wraps hwidth hne

/-- The word that no longer fits starts a line. -/
theorem wrap_three_words :
    leastWrap ≤ 10 ∧ wrap 10 "the quick  brown" = (["the quick", "brown"] : List Text) ∧
      Wraps 10 "the quick  brown" ["the quick", "brown"] := by
  have hwrap : wrap 10 "the quick  brown" = (["the quick", "brown"] : List Text) := by
    decide +kernel
  exact ⟨by decide, hwrap, hwrap ▸ wrap_lossless_greedy.2 "the quick  brown" 10 (by decide)⟩

end JvmLinkage.Text
