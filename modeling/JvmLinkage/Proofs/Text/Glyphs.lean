import JvmLinkage.Text.Blank
import Mathlib.Tactic.SplitIfs

/-!
# Taking texts apart

A text begins with a character exactly if it begins with the octets of that character. So taking a
text apart loses nothing, a part of its glyphs is taken apart on its own as it was within the text,
and what follows a text leaves its glyphs alone unless it begins with an octet that can continue a
character.
-/

namespace JvmLinkage.Text

namespace Utf8

/-! ## The octets of a character -/

/-- The octets of one character and its number. The number of octets is the least that can hold the
number, and neither a surrogate nor a number past the last character has any. -/
inductive Octets : Text → Nat → Prop where
  | one {a : UInt8} : a.toNat < 0x80 → Octets [a] a.toNat
  | two {a b : UInt8} {n : Nat} : 0xC0 ≤ a.toNat → a.toNat < 0xE0 → isContinuation b = true →
      n = a.toNat % 0x20 * 0x40 + payload b → 0x80 ≤ n → Octets [a, b] n
  | three {a b c : UInt8} {n : Nat} : 0xE0 ≤ a.toNat → a.toNat < 0xF0 → isContinuation b = true →
      isContinuation c = true → n = (a.toNat % 0x10 * 0x40 + payload b) * 0x40 + payload c →
      0x800 ≤ n → n.isValidChar → Octets [a, b, c] n
  | four {a b c d : UInt8} {n : Nat} : 0xF0 ≤ a.toNat → a.toNat < 0xF8 → isContinuation b = true →
      isContinuation c = true → isContinuation d = true →
      n = ((a.toNat % 0x08 * 0x40 + payload b) * 0x40 + payload c) * 0x40 + payload d →
      0x10000 ≤ n → n.isValidChar → Octets [a, b, c, d] n

theorem isContinuation_iff {b : UInt8} :
    isContinuation b = true ↔ 0x80 ≤ b.toNat ∧ b.toNat ≤ 0xBF := by
  simp [isContinuation, UInt8.le_iff_toNat_le]

theorem toNat_octet {n : Nat} (h : n < 256) : (UInt8.ofNat n).toNat = n :=
  UInt8.toNat_ofNat_of_lt' h

theorem eq_octet {a : UInt8} {n : Nat} (h : n = a.toNat) : a = UInt8.ofNat n := by
  rw [h, UInt8.ofNat_toNat]

variable {s t : Text} {n : Nat}

theorem Octets.isValidChar (h : Octets s n) : n.isValidChar := by
  cases h with
  | one ha => exact .inl (by omega)
  | two _ _ _ hn _ =>
    rw [payload] at hn
    exact .inl (by omega)
  | three _ _ _ _ _ _ hvalid => exact hvalid
  | four _ _ _ _ _ _ _ hvalid => exact hvalid

theorem within_iff {low high a : UInt8} :
    (decide (low ≤ a) && decide (a ≤ high)) = true ↔
      low.toNat ≤ a.toNat ∧ a.toNat ≤ high.toNat := by
  rw [Bool.and_eq_true, decide_eq_true_eq, decide_eq_true_eq, UInt8.le_iff_toNat_le,
    UInt8.le_iff_toNat_le]

/-- The bounds on a second octet are those of any continuation, but for four first octets. -/
theorem second_iff {a b : UInt8} :
    (decide (secondFrom a ≤ b) && decide (b ≤ secondTo a)) = true ↔
      isContinuation b = true ∧ (a.toNat = 0xE0 → 0xA0 ≤ b.toNat) ∧
        (a.toNat = 0xF0 → 0x90 ≤ b.toNat) ∧ (a.toNat = 0xED → b.toNat ≤ 0x9F) ∧
        (a.toNat = 0xF4 → b.toNat ≤ 0x8F) := by
  rw [isContinuation_iff, within_iff]
  simp only [secondFrom, secondTo, ← UInt8.toNat_inj, apply_ite UInt8.toNat, UInt8.toNat_ofNat]
  split_ifs <;> omega

theorem first?_cons (a : UInt8) (rest : Text) :
    first? (a :: rest) =
      if a.toNat < 0x80 then some (Char.ofNat a.toNat, 0)
      else if 0xC2 ≤ a.toNat ∧ a.toNat ≤ 0xDF then
        match rest with
        | b :: _ =>
          if isContinuation b then some (Char.ofNat (a.toNat % 0x20 * 0x40 + payload b), 1)
          else none
        | [] => none
      else if 0xE0 ≤ a.toNat ∧ a.toNat ≤ 0xEF then
        match rest with
        | b :: c :: _ =>
          if secondFrom a ≤ b && b ≤ secondTo a && isContinuation c then
            some (Char.ofNat ((a.toNat % 0x10 * 0x40 + payload b) * 0x40 + payload c), 2)
          else none
        | _ => none
      else if 0xF0 ≤ a.toNat ∧ a.toNat ≤ 0xF4 then
        match rest with
        | b :: c :: d :: _ =>
          if secondFrom a ≤ b && b ≤ secondTo a && isContinuation c && isContinuation d then
            some (Char.ofNat
              (((a.toNat % 0x08 * 0x40 + payload b) * 0x40 + payload c) * 0x40 + payload d), 3)
          else none
        | _ => none
      else none := by
  simp only [first?, within_iff, UInt8.lt_iff_toNat_lt]
  rfl

/-- The octets of a character are found at the beginning of a text, whatever follows them. -/
theorem Octets.first?_append (h : Octets s n) (rest : Text) :
    first? (s ++ rest) = some (Char.ofNat n, s.length - 1) := by
  cases h with
  | @one a ha => exact (first?_cons a rest).trans (if_pos ha)
  | @two a b n hlow hhigh hb hn hleast =>
    have hpayload : payload b < 0x40 := Nat.mod_lt _ (by omega)
    refine (first?_cons a _).trans ?_
    rw [if_neg (by omega), if_pos (by omega)]
    simp [hb, hn]
  | @three a b c n hlow hhigh hb hc hn hleast hvalid =>
    have hsecond : (decide (secondFrom a ≤ b) && decide (b ≤ secondTo a)) = true := by
      refine second_iff.mpr ⟨hb, ?_⟩
      rw [isContinuation_iff] at hb
      simp only [payload, Nat.isValidChar] at hn hvalid
      omega
    refine (first?_cons a _).trans ?_
    rw [if_neg (by omega), if_neg (by omega), if_pos (by omega)]
    simp [hsecond, hc, hn]
  | @four a b c d n hlow hhigh hb hc hd hn hleast hvalid =>
    have hsecond : (decide (secondFrom a ≤ b) && decide (b ≤ secondTo a)) = true := by
      refine second_iff.mpr ⟨hb, ?_⟩
      rw [isContinuation_iff] at hb
      simp only [payload, Nat.isValidChar] at hn hvalid
      omega
    have hhigh : a.toNat ≤ 0xF4 := by
      simp only [payload, Nat.isValidChar] at hn hvalid
      omega
    refine (first?_cons a _).trans ?_
    rw [if_neg (by omega), if_neg (by omega), if_neg (by omega), if_pos (by omega)]
    simp [hsecond, hc, hd, hn]

/-- A text that begins with a character begins with octets of its number. -/
theorem exists_octets_of_first? {c : Char} (h : first? t = some (c, n)) :
    ∃ s rest k, t = s ++ rest ∧ Octets s k ∧ c = Char.ofNat k ∧ s.length = n + 1 := by
  cases t with
  | nil => cases h
  | cons a rest =>
    rw [first?_cons] at h
    split at h
    case isTrue ha =>
      cases h
      exact ⟨[a], rest, _, rfl, .one ha, rfl, rfl⟩
    case isFalse =>
      split at h
      case isTrue hbounds =>
        split at h
        case h_1 b rest =>
          split at h
          case isTrue hb =>
            cases h
            exact ⟨[a, b], rest, _, rfl, .two (by omega) (by omega) hb rfl (by omega), rfl, rfl⟩
          case isFalse => cases h
        case h_2 => cases h
      case isFalse =>
        split at h
        case isTrue hbounds =>
          split at h
          case h_1 b c rest =>
            split at h
            case isTrue htail =>
              cases h
              rw [Bool.and_eq_true, second_iff] at htail
              obtain ⟨⟨hb, hsecond⟩, hc⟩ := htail
              refine ⟨[a, b, c], rest, _, rfl, .three (by omega) (by omega) hb hc rfl ?_ ?_, rfl,
                rfl⟩
              · rw [isContinuation_iff] at hb
                simp only [payload]
                omega
              · rw [isContinuation_iff] at hb
                simp only [payload, Nat.isValidChar]
                omega
            case isFalse => cases h
          case h_2 => cases h
        case isFalse =>
          split at h
          case isTrue hbounds =>
            split at h
            case h_1 b c d rest =>
              split at h
              case isTrue htail =>
                cases h
                rw [Bool.and_eq_true, Bool.and_eq_true, second_iff] at htail
                obtain ⟨⟨⟨hb, hsecond⟩, hc⟩, hd⟩ := htail
                refine ⟨[a, b, c, d], rest, _, rfl,
                  .four (by omega) (by omega) hb hc hd rfl ?_ ?_, rfl, rfl⟩
                · rw [isContinuation_iff] at hb
                  simp only [payload]
                  omega
                · rw [isContinuation_iff] at hb
                  simp only [payload, Nat.isValidChar]
                  omega
              case isFalse => cases h
            case h_2 => cases h
          case isFalse => cases h

theorem val_ofNat {n : Nat} (h : n.isValidChar) : (Char.ofNat n).val.toNat = n := by
  rw [Char.ofNat, dif_pos h]
  rfl

/-- A number has one row of octets, those in which its character is written. -/
theorem Octets.eq_utf8EncodeChar (h : Octets s n) :
    s = String.utf8EncodeChar (Char.ofNat n) := by
  unfold String.utf8EncodeChar
  rw [val_ofNat h.isValidChar]
  cases h with
  | one ha => rw [if_pos (by omega), UInt8.ofNat_toNat]
  | @two a b n hlow hhigh hb hn hleast =>
    rw [isContinuation_iff] at hb
    rw [payload] at hn
    have ha : a = UInt8.ofNat (n / 64 % 32 + 192) := eq_octet (by omega)
    have hb : b = UInt8.ofNat (n % 64 + 128) := eq_octet (by omega)
    rw [if_neg (by omega), if_pos (by omega), ha, hb]
  | @three a b c n hlow hhigh hb hc hn hleast hvalid =>
    rw [isContinuation_iff] at hb hc
    rw [payload, payload] at hn
    have ha : a = UInt8.ofNat (n / 4096 % 16 + 224) := eq_octet (by omega)
    have hb : b = UInt8.ofNat (n / 64 % 64 + 128) := eq_octet (by omega)
    have hc : c = UInt8.ofNat (n % 64 + 128) := eq_octet (by omega)
    rw [if_neg (by omega), if_neg (by omega), if_pos (by omega), ha, hb, hc]
  | @four a b c d n hlow hhigh hb hc hd hn hleast hvalid =>
    rw [isContinuation_iff] at hb hc hd
    rw [payload, payload, payload] at hn
    have ha : a = UInt8.ofNat (n / 262144 % 8 + 240) := eq_octet (by omega)
    have hb : b = UInt8.ofNat (n / 4096 % 64 + 128) := eq_octet (by omega)
    have hc : c = UInt8.ofNat (n / 64 % 64 + 128) := eq_octet (by omega)
    have hd : d = UInt8.ofNat (n % 64 + 128) := eq_octet (by omega)
    rw [if_neg (by omega), if_neg (by omega), if_neg (by omega), ha, hb, hc, hd]

theorem octets_utf8EncodeChar (c : Char) : Octets (String.utf8EncodeChar c) c.toNat := by
  have hvalid : c.toNat.isValidChar := c.valid
  have hcontinues (k : Nat) : isContinuation (UInt8.ofNat (k % 64 + 128)) = true := by
    rw [isContinuation_iff, toNat_octet (by omega)]
    omega
  have hpayload (k : Nat) : payload (UInt8.ofNat (k % 64 + 128)) = k % 64 := by
    rw [payload, toNat_octet (by omega)]
    omega
  unfold String.utf8EncodeChar
  rw [← Char.toNat]
  generalize c.toNat = n at hvalid
  unfold Nat.isValidChar at hvalid
  dsimp only
  split
  case isTrue hone =>
    have ha : (UInt8.ofNat n).toNat = n := toNat_octet (by omega)
    have hoctets : Octets [UInt8.ofNat n] (UInt8.ofNat n).toNat := .one (by omega)
    rwa [ha] at hoctets
  case isFalse hone =>
    split
    case isTrue htwo =>
      have ha : (UInt8.ofNat (n / 64 % 32 + 192)).toNat = n / 64 % 32 + 192 :=
        toNat_octet (by omega)
      refine .two (by omega) (by omega) (hcontinues _) ?_ (by omega)
      rw [ha, hpayload]
      omega
    case isFalse htwo =>
      split
      case isTrue hthree =>
        have ha : (UInt8.ofNat (n / 4096 % 16 + 224)).toNat = n / 4096 % 16 + 224 :=
          toNat_octet (by omega)
        refine .three (by omega) (by omega) (hcontinues _) (hcontinues _) ?_ (by omega) hvalid
        rw [ha, hpayload, hpayload]
        omega
      case isFalse hthree =>
        have ha : (UInt8.ofNat (n / 262144 % 8 + 240)).toNat = n / 262144 % 8 + 240 :=
          toNat_octet (by omega)
        refine .four (by omega) (by omega) (hcontinues _) (hcontinues _) (hcontinues _) ?_
          (by omega)
          hvalid
        rw [ha, hpayload, hpayload, hpayload]
        omega

/-- A text begins with a character exactly if it begins with its octets. -/
theorem first?_eq_some_iff {c : Char} :
    first? t = some (c, n) ↔
      String.utf8EncodeChar c <+: t ∧ (String.utf8EncodeChar c).length = n + 1 := by
  constructor
  · intro h
    obtain ⟨s, rest, k, rfl, hs, rfl, hlength⟩ := exists_octets_of_first? h
    rw [← hs.eq_utf8EncodeChar]
    exact ⟨⟨rest, rfl⟩, hlength⟩
  · rintro ⟨⟨rest, rfl⟩, hlength⟩
    rw [(octets_utf8EncodeChar c).first?_append, hlength, Char.ofNat_toNat]
    rfl

/-- All octets of a character but the first are continuations. -/
theorem Octets.exists_cons (h : Octets s n) :
    ∃ a rest, s = a :: rest ∧ isContinuation a = false ∧ ∀ b ∈ rest, isContinuation b = true := by
  have hfirst {a : UInt8} (ha : a.toNat < 0x80 ∨ 0xC0 ≤ a.toNat) : isContinuation a = false := by
    rw [← Bool.not_eq_true, isContinuation_iff]
    omega
  cases h with
  | @one a ha => exact ⟨a, [], rfl, hfirst (.inl ha), nofun⟩
  | @two a b _ hlow _ hb => exact ⟨a, [b], rfl, hfirst (.inr hlow), by simp [hb]⟩
  | @three a b c _ hlow _ hb hc =>
    exact ⟨a, [b, c], rfl, hfirst (.inr (by omega)), by simp [hb, hc]⟩
  | @four a b c d _ hlow _ hb hc hd =>
    exact ⟨a, [b, c, d], rfl, hfirst (.inr (by omega)), by simp [hb, hc, hd]⟩

/-- A text that begins with no character begins with none when less follows. -/
theorem first?_eq_none_of_append {s rest : Text} (h : first? (s ++ rest) = none) :
    first? s = none := by
  rw [Option.eq_none_iff_forall_ne_some] at h ⊢
  rintro ⟨c, n⟩ hs
  obtain ⟨hbegins, hlength⟩ := first?_eq_some_iff.mp hs
  exact h (c, n) (first?_eq_some_iff.mpr ⟨hbegins.trans (List.prefix_append s rest), hlength⟩)

/-- What follows does not complete a character, unless it begins with a continuation. -/
theorem first?_append_cons_eq_none {a b : UInt8} {s rest : Text} (h : first? (a :: s) = none)
    (hb : isContinuation b = false) : first? (a :: s ++ b :: rest) = none := by
  rw [Option.eq_none_iff_forall_ne_some] at h ⊢
  rintro ⟨c, n⟩ hfirst
  obtain ⟨hbegins, hlength⟩ := first?_eq_some_iff.mp hfirst
  obtain ⟨d, tail, hoctets, -, htail⟩ := (octets_utf8EncodeChar c).exists_cons
  refine h (c, n) (first?_eq_some_iff.mpr ⟨?_, hlength⟩)
  rw [hoctets, List.cons_append, List.cons_prefix_cons] at hbegins
  rw [hoctets, List.cons_prefix_cons]
  refine ⟨hbegins.1, ?_⟩
  -- The octets of the character are too few to reach `b`, which would be one of its continuations.
  rcases List.prefix_or_prefix_of_prefix hbegins.2 (List.prefix_append s (b :: rest)) with hs | hs
  · exact hs
  · obtain ⟨part, rfl⟩ := hs
    rw [List.prefix_append_right_inj] at hbegins
    cases part with
    | nil => simp
    | cons x part =>
      obtain rfl := (List.cons_prefix_cons.mp hbegins.2).1
      rw [htail x (by simp)] at hb
      contradiction

theorem glyphsFrom_eq (n : Nat) (t : Text) : glyphsFrom n t = glyphs (t.drop n) := by
  induction n generalizing t with
  | zero => rfl
  | succ n ih =>
    cases t with
    | nil => rfl
    | cons b t => exact ih t

end Utf8

/-! ## Glyphs -/

open Utf8

@[simp] theorem glyphs_nil : glyphs [] = [] := rfl

@[simp] theorem glyphs_utf8EncodeChar_append (c : Char) (t : Text) :
    glyphs (String.utf8EncodeChar c ++ t) = .char c :: glyphs t := by
  have hfirst := (octets_utf8EncodeChar c).first?_append t
  rw [Char.ofNat_toNat] at hfirst
  obtain ⟨a, s, hs, -⟩ := (octets_utf8EncodeChar c).exists_cons
  rw [hs, List.cons_append, List.length_cons, Nat.add_sub_cancel] at hfirst
  rw [hs, List.cons_append, glyphs, glyphsFrom, hfirst]
  simp [glyphsFrom_eq]

theorem glyphs_stray {b : UInt8} {t : Text} (h : first? (b :: t) = none) :
    glyphs (b :: t) = .stray b :: glyphs t := by
  rw [glyphs, glyphsFrom, h]
  rfl

/-- A text is empty, or begins with a character or with a stray octet. -/
theorem glyphs_induction {motive : Text → Prop} (nil : motive [])
    (char : ∀ c t, motive t → motive (String.utf8EncodeChar c ++ t))
    (stray : ∀ b t, first? (b :: t) = none → motive t → motive (b :: t)) (t : Text) : motive t := by
  induction hlength : t.length using Nat.strongRecOn generalizing t with
  | ind k ih =>
    cases t with
    | nil => exact nil
    | cons b t =>
      cases hfirst : first? (b :: t) with
      | none => exact stray b t hfirst (ih t.length (by simp [← hlength]) t rfl)
      | some found =>
        obtain ⟨⟨rest, hrest⟩, hpos⟩ := first?_eq_some_iff.mp hfirst
        rw [← hrest]
        refine char _ rest (ih rest.length ?_ rest rfl)
        rw [← hlength, ← hrest, List.length_append]
        omega

@[simp] theorem ofGlyphs_nil : ofGlyphs [] = [] := rfl

@[simp] theorem ofGlyphs_char (c : Char) (gs : List Glyph) :
    ofGlyphs (.char c :: gs) = String.utf8EncodeChar c ++ ofGlyphs gs := rfl

@[simp] theorem ofGlyphs_stray (b : UInt8) (gs : List Glyph) :
    ofGlyphs (.stray b :: gs) = b :: ofGlyphs gs := rfl

@[simp] theorem ofGlyphs_append (gs hs : List Glyph) :
    ofGlyphs (gs ++ hs) = ofGlyphs gs ++ ofGlyphs hs :=
  List.flatMap_append

@[simp] theorem ofGlyphs_glyphs (t : Text) : ofGlyphs t.glyphs = t := by
  induction t using glyphs_induction with
  | nil => rfl
  | char c t ih => rw [glyphs_utf8EncodeChar_append, ofGlyphs_char, ih]
  | stray b t hfirst ih => rw [glyphs_stray hfirst, ofGlyphs_stray, ih]

/-- The parts of a text that glyphs are in are taken apart into those glyphs. -/
theorem glyphs_ofGlyphs_of_append {t : Text} {gs hs : List Glyph} (h : t.glyphs = gs ++ hs) :
    (ofGlyphs gs).glyphs = gs ∧ (ofGlyphs hs).glyphs = hs := by
  induction t using glyphs_induction generalizing gs with
  | nil =>
    obtain ⟨rfl, rfl⟩ := List.append_eq_nil_iff.mp h.symm
    exact ⟨rfl, rfl⟩
  | char c t ih =>
    rw [glyphs_utf8EncodeChar_append] at h
    cases gs with
    | nil =>
      rw [List.nil_append] at h
      rw [← h, ofGlyphs_char, ofGlyphs_glyphs, glyphs_utf8EncodeChar_append]
      exact ⟨rfl, rfl⟩
    | cons g gs =>
      rw [List.cons_append] at h
      obtain ⟨rfl, hrest⟩ := List.cons.inj h
      obtain ⟨hgs, hhs⟩ := ih hrest
      rw [ofGlyphs_char, glyphs_utf8EncodeChar_append, hgs]
      exact ⟨rfl, hhs⟩
  | stray b t hfirst ih =>
    rw [glyphs_stray hfirst] at h
    cases gs with
    | nil =>
      rw [List.nil_append] at h
      rw [← h, ofGlyphs_stray, ofGlyphs_glyphs, glyphs_stray hfirst]
      exact ⟨rfl, rfl⟩
    | cons g gs =>
      rw [List.cons_append] at h
      obtain ⟨rfl, hrest⟩ := List.cons.inj h
      obtain ⟨hgs, hhs⟩ := ih hrest
      have ht : t = ofGlyphs gs ++ ofGlyphs hs := by
        rw [← ofGlyphs_append, ← hrest, ofGlyphs_glyphs]
      rw [ht, ← List.cons_append] at hfirst
      rw [ofGlyphs_stray, glyphs_stray (first?_eq_none_of_append hfirst), hgs]
      exact ⟨rfl, hhs⟩

/-- A text and what follows it are taken apart one by one, unless a continuation follows. -/
theorem glyphs_append_cons (s : Text) {b : UInt8} (t : Text) (hb : isContinuation b = false) :
    glyphs (s ++ b :: t) = glyphs s ++ glyphs (b :: t) := by
  induction s using glyphs_induction with
  | nil => rfl
  | char c s ih =>
    rw [List.append_assoc, glyphs_utf8EncodeChar_append, ih, glyphs_utf8EncodeChar_append,
      List.cons_append]
  | stray a s hfirst ih =>
    have hlong : first? (a :: s ++ b :: t) = none := first?_append_cons_eq_none hfirst hb
    rw [List.cons_append] at hlong ⊢
    rw [glyphs_stray hlong, ih, glyphs_stray hfirst, List.cons_append]

theorem glyphs_append_utf8EncodeChar (s : Text) (c : Char) (t : Text) :
    glyphs (s ++ String.utf8EncodeChar c ++ t) = glyphs s ++ .char c :: glyphs t := by
  obtain ⟨a, rest, hrest, ha, -⟩ := (octets_utf8EncodeChar c).exists_cons
  rw [List.append_assoc, ← glyphs_utf8EncodeChar_append, hrest, List.cons_append,
    glyphs_append_cons s _ ha]

end JvmLinkage.Text
