import JvmLinkage.Proofs.Text.Glyphs
import JvmLinkage.Proofs.Text.Parts

/-!
# Words and blanks

A text falls into words in one way: no blank occurs in a word, and at least one stands between
neighbours. Words that are joined by blanks are found again. Trimming takes away the blanks at both
ends of a text and nothing else.
-/

namespace JvmLinkage.Text

/-! ## Words -/

/-- A text that is not empty and in which no blank occurs. -/
structure IsWord (w : Text) : Prop where
  ne_nil : w ≠ []
  not_blank : ∀ c, isBlank c = true → ¬ String.utf8EncodeChar c <:+: w

/-- The text is empty or begins with a blank. -/
def Breaks (t : Text) : Prop :=
  t = [] ∨ ∃ c, isBlank c = true ∧ String.utf8EncodeChar c <+: t

/-- A text falls into words, with blanks between neighbours and perhaps at both ends. -/
inductive HasWords : Text → List Text → Prop where
  | nil : HasWords [] []
  | blank {c : Char} {t : Text} {ws : List Text} :
      isBlank c = true → HasWords t ws → HasWords (String.utf8EncodeChar c ++ t) ws
  | word {w t : Text} {ws : List Text} :
      IsWord w → Breaks t → HasWords t ws → HasWords (w ++ t) (w :: ws)

theorem HasWords.isWord {t : Text} {ws : List Text} (h : HasWords t ws) : ∀ w ∈ ws, IsWord w := by
  induction h with
  | nil => nofun
  | blank _ _ ih => exact ih
  | word hw _ _ ih => exact List.forall_mem_cons.mpr ⟨hw, ih⟩

/-! ## Blanks among glyphs -/

theorem Glyph.exists_char_of_isBlank {g : Glyph} (h : g.isBlank = true) :
    ∃ c, g = .char c ∧ Text.isBlank c = true := by
  cases g with
  | char c => exact ⟨c, rfl, h⟩
  | stray b => cases h

/-- A character occurs in a text exactly if it is one of its glyphs. -/
theorem occurs_iff {c : Char} {t : Text} :
    String.utf8EncodeChar c <:+: t ↔ .char c ∈ t.glyphs := by
  constructor
  · rintro ⟨front, back, rfl⟩
    rw [glyphs_append_utf8EncodeChar]
    exact List.mem_append_right _ List.mem_cons_self
  · intro h
    obtain ⟨gs, hs, hglyphs⟩ := List.append_of_mem h
    have ht : ofGlyphs t.glyphs = ofGlyphs (gs ++ .char c :: hs) := congrArg ofGlyphs hglyphs
    rw [ofGlyphs_glyphs, ofGlyphs_append, ofGlyphs_char, ← List.append_assoc] at ht
    exact ⟨ofGlyphs gs, ofGlyphs hs, ht.symm⟩

theorem isWord_iff {w : Text} : IsWord w ↔ w ≠ [] ∧ ∀ g ∈ w.glyphs, g.isBlank = false := by
  constructor
  · rintro ⟨hne, hnone⟩
    refine ⟨hne, fun g hg => Bool.eq_false_iff.mpr fun hblank => ?_⟩
    obtain ⟨c, rfl, hc⟩ := Glyph.exists_char_of_isBlank hblank
    exact hnone c hc (occurs_iff.mpr hg)
  · rintro ⟨hne, hnone⟩
    refine ⟨hne, fun c hc hoccurs => ?_⟩
    have hfalse : isBlank c = false := hnone _ (occurs_iff.mp hoccurs)
    exact absurd hc (Bool.eq_false_iff.mp hfalse)

theorem glyphs_append_of_breaks (s : Text) {t : Text} (h : Breaks t) :
    glyphs (s ++ t) = glyphs s ++ glyphs t := by
  rcases h with rfl | ⟨c, -, rest, rfl⟩
  · simp
  · rw [← List.append_assoc, glyphs_append_utf8EncodeChar, glyphs_utf8EncodeChar_append]

theorem Breaks.isBlank_head {t : Text} (h : Breaks t) : ∀ g ∈ t.glyphs.head?, g.isBlank = true := by
  rcases h with rfl | ⟨c, hc, rest, rfl⟩
  · nofun
  · rw [glyphs_utf8EncodeChar_append]
    rintro g ⟨⟩
    exact hc

/-! ## Every text falls into words in one way -/

theorem runs_cons_of_isBlank {g : Glyph} (h : g.isBlank = true) (gs : List Glyph) :
    runs (g :: gs) = runs gs := by
  rw [runs.eq_def]
  simp [h]

/-- Glyphs that are no blanks are a run, if they are all there are or a blank follows. -/
theorem runs_append {word rest : List Glyph} (hne : word ≠ [])
    (hword : ∀ g ∈ word, g.isBlank = false) (hrest : ∀ g ∈ rest.head?, g.isBlank = true) :
    runs (word ++ rest) = word :: runs rest := by
  induction word with
  | nil => contradiction
  | cons g word ih =>
    obtain ⟨hg, hword⟩ := List.forall_mem_cons.mp hword
    cases word with
    | nil =>
      cases rest with
      | nil => simp [runs, hg]
      | cons next rest =>
        have hnext : next.isBlank = true := hrest next rfl
        simp [runs, hg, hnext]
    | cons next word =>
      have hnext : next.isBlank = false := hword next List.mem_cons_self
      have hruns : runs (next :: (word ++ rest)) = (next :: word) :: runs rest := ih (by simp) hword
      rw [List.cons_append, List.cons_append, runs.eq_def]
      simp [hg, hnext, hruns]

theorem HasWords.eq_words {t : Text} {ws : List Text} (h : HasWords t ws) : ws = words t := by
  induction h with
  | nil => rfl
  | blank hc _ ih =>
    rw [ih]
    unfold words
    rw [glyphs_utf8EncodeChar_append, runs_cons_of_isBlank (g := .char _) hc]
  | @word w t ws hw hbreaks _ ih =>
    obtain ⟨hne, hnone⟩ := isWord_iff.mp hw
    have hglyphs : w.glyphs ≠ [] := by
      intro hnil
      rw [← ofGlyphs_glyphs w, hnil] at hne
      exact hne rfl
    rw [words, glyphs_append_of_breaks w hbreaks, runs_append hglyphs hnone hbreaks.isBlank_head,
      List.map_cons, ofGlyphs_glyphs, ih, words]

/-- A text falls into words with something in front that is no blank, as it can be put before the
first word or is a word of its own. -/
theorem HasWords.exists_append {s t : Text} {ws : List Text} (h : HasWords t ws) (hne : s ≠ [])
    (hs : ∀ w : Text, w <+: t → (∀ g ∈ w.glyphs, g.isBlank = false) →
      ∀ g ∈ glyphs (s ++ w), g.isBlank = false) : ∃ us, HasWords (s ++ t) us := by
  have hword : IsWord s := by
    refine isWord_iff.mpr ⟨hne, ?_⟩
    simpa using hs [] List.nil_prefix (by simp)
  cases h with
  | nil => exact ⟨[s], .word hword (.inl rfl) .nil⟩
  | @blank c t ws hc h =>
    exact ⟨s :: ws, .word hword (.inr ⟨c, hc, List.prefix_append _ t⟩) (.blank hc h)⟩
  | @word w t ws hw hbreaks h =>
    have hlong : IsWord (s ++ w) := by
      refine isWord_iff.mpr ⟨by simp [hne], ?_⟩
      exact hs w (List.prefix_append w t) (isWord_iff.mp hw).2
    rw [← List.append_assoc]
    exact ⟨(s ++ w) :: ws, .word hlong hbreaks h⟩

theorem exists_hasWords (t : Text) : ∃ ws, HasWords t ws := by
  induction t using glyphs_induction with
  | nil => exact ⟨[], .nil⟩
  | char c t ih =>
    obtain ⟨ws, h⟩ := ih
    cases hc : isBlank c with
    | true => exact ⟨ws, .blank hc h⟩
    | false =>
      refine h.exists_append ?_ fun w _ hw => ?_
      · obtain ⟨a, rest, ha, -⟩ := (Utf8.octets_utf8EncodeChar c).exists_cons
        simp [ha]
      · rw [glyphs_utf8EncodeChar_append]
        exact List.forall_mem_cons.mpr ⟨hc, hw⟩
  | stray b t hfirst ih =>
    obtain ⟨ws, h⟩ := ih
    refine h.exists_append (s := [b]) (by simp) ?_
    rintro w ⟨rest, rfl⟩ hw
    rw [← List.cons_append] at hfirst
    rw [List.singleton_append, glyphs_stray (Utf8.first?_eq_none_of_append hfirst)]
    exact List.forall_mem_cons.mpr ⟨rfl, hw⟩

/-- Every text falls into words in one way. -/
theorem hasWords_iff {t : Text} {ws : List Text} : HasWords t ws ↔ ws = words t := by
  constructor
  · exact HasWords.eq_words
  · rintro rfl
    obtain ⟨ws, h⟩ := exists_hasWords t
    rwa [← h.eq_words]

@[simp] theorem words_nil : words [] = [] := by simp [words, runs]

theorem isWord_of_mem_words {t w : Text} (h : w ∈ words t) : IsWord w :=
  (hasWords_iff.mpr rfl).isWord w h

theorem words_of_isWord {w : Text} (h : IsWord w) : words w = [w] := by
  have hwords : HasWords (w ++ []) [w] := .word h (.inl rfl) .nil
  rw [List.append_nil] at hwords
  exact hwords.eq_words.symm

/-- A blank divides the words before it from those after it. -/
theorem HasWords.append_blank {s t : Text} {ws us : List Text} (hs : HasWords s ws)
    (ht : HasWords t us) {c : Char} (hc : isBlank c = true) :
    HasWords (s ++ (String.utf8EncodeChar c ++ t)) (ws ++ us) := by
  induction hs with
  | nil => exact .blank hc ht
  | blank hd _ ih =>
    rw [List.append_assoc]
    exact .blank hd ih
  | @word w s ws hw hbreaks _ ih =>
    rw [List.append_assoc]
    refine .word hw (.inr ?_) ih
    rcases hbreaks with rfl | ⟨d, hd, rest, rfl⟩
    · exact ⟨c, hc, List.prefix_append _ t⟩
    · exact ⟨d, hd, ⟨rest ++ (String.utf8EncodeChar c ++ t), by rw [List.append_assoc]⟩⟩

theorem words_append_space (s t : Text) : words (s ++ Ascii.space :: t) = words s ++ words t := by
  have hspace : String.utf8EncodeChar ' ' = [Ascii.space] := by decide
  have happend := (hasWords_iff.mpr (rfl : words s = _)).append_blank
    (hasWords_iff.mpr (rfl : words t = _)) (c := ' ') (by decide)
  rw [hspace] at happend
  exact happend.eq_words.symm

/-- Words that are joined by spaces are found again. -/
theorem words_join {ws : List Text} (h : ∀ w ∈ ws, IsWord w) : words (join " " ws) = ws := by
  have hspace : ofString " " = [Ascii.space] := by decide
  rw [hspace]
  induction ws with
  | nil => rfl
  | cons w ws ih =>
    obtain ⟨hw, hws⟩ := List.forall_mem_cons.mp h
    cases ws with
    | nil => rw [join_singleton, words_of_isWord hw]
    | cons next ws =>
      rw [join_cons_cons, List.append_assoc, List.singleton_append, words_append_space,
        words_of_isWord hw, ih hws, List.singleton_append]

/-! ## Trimming -/

/-- A text is what is left of another one without the blanks at both ends. -/
structure Trims (t u : Text) : Prop where
  around : ∃ front back : List Char, (∀ c ∈ front ++ back, isBlank c = true) ∧
    t = ofChars front ++ u ++ ofChars back
  start : ∀ c, isBlank c = true → ¬ String.utf8EncodeChar c <+: u
  finish : ∀ c, isBlank c = true → ¬ String.utf8EncodeChar c <:+ u

theorem glyphs_ofChars_append (cs : List Char) (t : Text) :
    glyphs (ofChars cs ++ t) = cs.map .char ++ glyphs t := by
  induction cs with
  | nil => rfl
  | cons c cs ih =>
    rw [ofChars, List.flatMap_cons, List.append_assoc, glyphs_utf8EncodeChar_append, ← ofChars, ih]
    rfl

theorem glyphs_append_ofChars (t : Text) (cs : List Char) :
    glyphs (t ++ ofChars cs) = glyphs t ++ cs.map .char := by
  cases cs with
  | nil => simp [ofChars]
  | cons c cs =>
    have hrest := glyphs_ofChars_append cs []
    rw [List.append_nil, glyphs_nil, List.append_nil] at hrest
    rw [ofChars, List.flatMap_cons, ← List.append_assoc, glyphs_append_utf8EncodeChar, ← ofChars,
      hrest]
    rfl

theorem ofGlyphs_map_char (cs : List Char) : ofGlyphs (cs.map .char) = ofChars cs :=
  List.flatMap_map ..

theorem exists_chars {gs : List Glyph} (h : ∀ g ∈ gs, g.isBlank = true) :
    ∃ cs : List Char, gs = cs.map .char ∧ ∀ c ∈ cs, isBlank c = true := by
  induction gs with
  | nil => exact ⟨[], rfl, nofun⟩
  | cons g gs ih =>
    obtain ⟨hg, hgs⟩ := List.forall_mem_cons.mp h
    obtain ⟨c, rfl, hc⟩ := Glyph.exists_char_of_isBlank hg
    obtain ⟨cs, rfl, hcs⟩ := ih hgs
    exact ⟨c :: cs, rfl, List.forall_mem_cons.mpr ⟨hc, hcs⟩⟩

theorem dropWhile_of_head {α : Type} {p : α → Bool} {xs : List α}
    (h : ∀ x ∈ xs.head?, p x = false) : xs.dropWhile p = xs := by
  cases xs with
  | nil => rfl
  | cons x xs => rw [List.dropWhile_cons_of_neg (by simp [h x rfl])]

theorem head_dropWhile {α : Type} {p : α → Bool} {xs : List α} :
    ∀ x ∈ (xs.dropWhile p).head?, p x = false := by
  intro x hx
  have hnot := List.head?_dropWhile_not p xs
  rwa [hx] at hnot

/-- What is taken away at both ends is there no more, and nothing else is missing. -/
theorem reverse_dropWhile_append {α : Type} {p : α → Bool} {front mid back : List α}
    (hfront : ∀ x ∈ front, p x = true) (hback : ∀ x ∈ back, p x = true)
    (hstart : ∀ x ∈ mid.head?, p x = false) (hfinish : ∀ x ∈ mid.reverse.head?, p x = false) :
    (((front ++ (mid ++ back)).dropWhile p).reverse.dropWhile p).reverse = mid := by
  rw [List.dropWhile_append_of_pos hfront]
  cases mid with
  | nil =>
    have hnone : (back ++ []).dropWhile p = [] := List.dropWhile_append_of_pos hback
    rw [List.append_nil] at hnone
    rw [List.nil_append, hnone]
    rfl
  | cons x mid =>
    have hstop : (x :: mid ++ back).dropWhile p = x :: mid ++ back := dropWhile_of_head hstart
    rw [hstop, List.reverse_append, List.dropWhile_append_of_pos (by simpa using hback),
      dropWhile_of_head hfinish, List.reverse_reverse]

/-- No blank stands at the beginning of a text exactly if its first glyph is none. -/
theorem not_blank_start_iff {u : Text} :
    (∀ c, isBlank c = true → ¬ String.utf8EncodeChar c <+: u) ↔
      ∀ g ∈ u.glyphs.head?, g.isBlank = false := by
  constructor
  · intro h g hg
    refine Bool.eq_false_iff.mpr fun hblank => ?_
    obtain ⟨c, rfl, hc⟩ := Glyph.exists_char_of_isBlank hblank
    obtain ⟨gs, hgs⟩ := List.head?_eq_some_iff.mp hg
    refine h c hc ⟨ofGlyphs gs, ?_⟩
    rw [← ofGlyphs_char, ← hgs, ofGlyphs_glyphs]
  · rintro h c hc ⟨rest, rfl⟩
    rw [glyphs_utf8EncodeChar_append] at h
    exact absurd hc (Bool.eq_false_iff.mp (h _ rfl))

/-- No blank stands at the end of a text exactly if its last glyph is none. -/
theorem not_blank_finish_iff {u : Text} :
    (∀ c, isBlank c = true → ¬ String.utf8EncodeChar c <:+ u) ↔
      ∀ g ∈ u.glyphs.reverse.head?, g.isBlank = false := by
  rw [List.head?_reverse]
  constructor
  · intro h g hg
    refine Bool.eq_false_iff.mpr fun hblank => ?_
    obtain ⟨c, rfl, hc⟩ := Glyph.exists_char_of_isBlank hblank
    obtain ⟨gs, hgs⟩ := List.getLast?_eq_some_iff.mp hg
    refine h c hc ⟨ofGlyphs gs, ?_⟩
    rw [← ofGlyphs_glyphs u, hgs, ofGlyphs_append]
    simp
  · rintro h c hc ⟨rest, rfl⟩
    have hglyphs := glyphs_append_utf8EncodeChar rest c []
    rw [List.append_nil, glyphs_nil] at hglyphs
    rw [hglyphs] at h
    exact absurd hc (Bool.eq_false_iff.mp (h (.char c) (by simp)))

theorem Trims.eq_trim {t u : Text} (h : Trims t u) : u = trim t := by
  obtain ⟨⟨front, back, hblank, rfl⟩, hstart, hfinish⟩ := h
  have hfront : ∀ g ∈ front.map Glyph.char, g.isBlank = true :=
    List.forall_mem_map.mpr fun c hc => hblank c (List.mem_append_left back hc)
  have hback : ∀ g ∈ back.map Glyph.char, g.isBlank = true :=
    List.forall_mem_map.mpr fun c hc => hblank c (List.mem_append_right front hc)
  rw [trim, trimBoth, List.append_assoc, glyphs_ofChars_append, glyphs_append_ofChars,
    reverse_dropWhile_append hfront hback (not_blank_start_iff.mp hstart)
      (not_blank_finish_iff.mp hfinish), ofGlyphs_glyphs]

theorem trims_trim (t : Text) : Trims t (trim t) := by
  -- The blanks in front, the rest, and of the rest the blanks at its end.
  let front := t.glyphs.takeWhile Glyph.isBlank
  let rest := t.glyphs.dropWhile Glyph.isBlank
  let back := (rest.reverse.takeWhile Glyph.isBlank).reverse
  let mid := (rest.reverse.dropWhile Glyph.isBlank).reverse
  have hrest : mid ++ back = rest := by
    rw [← List.reverse_append, List.takeWhile_append_dropWhile, List.reverse_reverse]
  have hglyphs : t.glyphs = front ++ (mid ++ back) := by
    rw [hrest, List.takeWhile_append_dropWhile]
  obtain ⟨fs, hfs, hfront⟩ : ∃ fs : List Char, front = fs.map .char ∧ ∀ c ∈ fs, isBlank c = true :=
    exists_chars fun g hg => by simpa using List.all_eq_true.mp List.all_takeWhile g hg
  obtain ⟨bs, hbs, hback⟩ : ∃ bs : List Char, back = bs.map .char ∧ ∀ c ∈ bs, isBlank c = true :=
    exists_chars fun g hg =>
      by simpa using List.all_eq_true.mp List.all_takeWhile g (List.mem_reverse.mp hg)
  have htrim : glyphs (trim t) = mid :=
    (glyphs_ofGlyphs_of_append (glyphs_ofGlyphs_of_append hglyphs).2).1
  refine ⟨⟨fs, bs, ?_, ?_⟩, ?_, ?_⟩
  · exact fun c hc => (List.mem_append.mp hc).elim (hfront c) (hback c)
  · have ht : ofGlyphs t.glyphs = ofGlyphs (front ++ (mid ++ back)) := congrArg ofGlyphs hglyphs
    rw [ofGlyphs_glyphs, ofGlyphs_append, ofGlyphs_append, hfs, hbs, ofGlyphs_map_char,
      ofGlyphs_map_char, ← List.append_assoc] at ht
    exact ht
  · rw [not_blank_start_iff, htrim]
    intro g hg
    have hhead : g ∈ rest.head? := by
      rw [← hrest, List.head?_append, Option.mem_def.mp hg]
      rfl
    exact head_dropWhile g hhead
  · rw [not_blank_finish_iff, htrim, List.reverse_reverse]
    exact head_dropWhile

/-- Trimming takes away the blanks at both ends. -/
theorem trims_iff {t u : Text} : Trims t u ↔ u = trim t :=
  ⟨Trims.eq_trim, fun h => h ▸ trims_trim t⟩

end JvmLinkage.Text
