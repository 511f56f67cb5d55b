import JvmLinkage.Text.Basic

/-!
# Parts of texts

A text falls into parts at the occurrences of an octet. Joining the parts gives the text back, and
one text has its parts at the beginning of those of another exactly if it is the same text or is
followed there by the octet. Cut at the last occurrence, a text falls into what is before it and one
last part.
-/

namespace JvmLinkage.Text

variable {b c : UInt8} {s t part : Text} {parts : List Text}

/-! ## Splitting -/

theorem splitOn_ne_nil (b : UInt8) (t : Text) : splitOn b t ≠ [] := by
  cases t with
  | nil => simp [splitOn]
  | cons c t =>
    rw [splitOn]
    split
    · simp
    · split <;> simp

theorem splitOn_of_not_mem (h : b ∉ t) : splitOn b t = [t] := by
  induction t with
  | nil => rfl
  | cons c t ih =>
    have hc : c ≠ b := fun hcb => h (by simp [hcb])
    have ht : b ∉ t := fun hb => h (by simp [hb])
    simp [splitOn, ih ht, hc]

theorem splitOn_append_cons (b : UInt8) (front back : Text) :
    splitOn b (front ++ b :: back) = splitOn b front ++ splitOn b back := by
  induction front with
  | nil =>
    cases hback : splitOn b back with
    | nil => exact absurd hback (splitOn_ne_nil b back)
    | cons part parts => simp [splitOn, hback]
  | cons c front ih =>
    rw [List.cons_append, splitOn, ih]
    cases hfront : splitOn b front with
    | nil => exact absurd hfront (splitOn_ne_nil b front)
    | cons part parts =>
      simp only [splitOn, hfront, List.cons_append]
      split <;> simp

theorem splitOn_append (h : b ∉ t) (front : Text) :
    splitOn b (front ++ b :: t) = splitOn b front ++ [t] := by
  rw [splitOn_append_cons, splitOn_of_not_mem h]

theorem of_mem_splitOn (h : part ∈ splitOn b t) : b ∉ part ∧ part ⊆ t := by
  induction t generalizing part with
  | nil =>
    obtain rfl : part = [] := by simpa [splitOn] using h
    simp
  | cons c t ih =>
    rw [splitOn] at h
    cases hsplit : splitOn b t with
    | nil => exact absurd hsplit (splitOn_ne_nil b t)
    | cons first parts =>
      rw [hsplit] at h ih
      dsimp only at h
      split at h
      · rcases List.mem_cons.mp h with rfl | h
        · simp
        · exact ⟨(ih h).1, List.subset_cons_of_subset c (ih h).2⟩
      · rename_i hne
        rcases List.mem_cons.mp h with rfl | h
        · obtain ⟨hb, hsub⟩ := ih (List.mem_cons_self ..)
          exact ⟨by simp [hb, Ne.symm hne], List.cons_subset_cons c hsub⟩
        · have hold := ih (List.mem_cons_of_mem first h)
          exact ⟨hold.1, List.subset_cons_of_subset c hold.2⟩

/-! ## Joining -/

@[simp] theorem join_nil (separator : Text) : join separator [] = [] := rfl

@[simp] theorem join_singleton (separator part : Text) : join separator [part] = part := by
  simp [join, List.intercalate]

theorem join_cons_cons (separator first second : Text) (parts : List Text) :
    join separator (first :: second :: parts) =
      first ++ separator ++ join separator (second :: parts) := by
  simp [join, List.intercalate, List.intersperse]

theorem join_append (separator : Text) {parts more : List Text} (h : parts ≠ [])
    (hmore : more ≠ []) :
    join separator (parts ++ more) = join separator parts ++ separator ++ join separator more := by
  induction parts with
  | nil => contradiction
  | cons part parts ih =>
    cases parts with
    | nil =>
      obtain ⟨first, rest, rfl⟩ := List.exists_cons_of_ne_nil hmore
      rw [List.singleton_append, join_cons_cons, join_singleton]
    | cons next parts =>
      have hrest := ih (by simp)
      rw [List.cons_append] at hrest
      rw [List.cons_append, List.cons_append, join_cons_cons, join_cons_cons, hrest]
      simp only [List.append_assoc]

theorem join_append_singleton (separator last : Text) (h : parts ≠ []) :
    join separator (parts ++ [last]) = join separator parts ++ separator ++ last := by
  rw [join_append separator h (by simp), join_singleton]

theorem not_mem_join (hc : c ≠ b) (h : ∀ part ∈ parts, c ∉ part) : c ∉ join [b] parts := by
  induction parts with
  | nil => simp
  | cons part parts ih =>
    have hpart := h part (List.mem_cons_self ..)
    cases parts with
    | nil => simpa using hpart
    | cons second parts =>
      rw [join_cons_cons]
      simp [hpart, hc, ih fun part hmem => h part (List.mem_cons_of_mem _ hmem)]

/-! ## Splitting and joining -/

theorem splitOn_join (hne : parts ≠ []) (h : ∀ part ∈ parts, b ∉ part) :
    splitOn b (join [b] parts) = parts := by
  induction parts with
  | nil => contradiction
  | cons part parts ih =>
    cases parts with
    | nil => simpa using splitOn_of_not_mem (h part (List.mem_cons_self ..))
    | cons second parts =>
      rw [join_cons_cons, List.append_assoc, List.singleton_append, splitOn_append_cons,
        splitOn_of_not_mem (h part (List.mem_cons_self ..)), ih (by simp), List.singleton_append]
      exact fun part hpart => h part (List.mem_cons_of_mem _ hpart)

@[simp] theorem join_splitOn (b : UInt8) (t : Text) : join [b] (splitOn b t) = t := by
  induction t with
  | nil => rfl
  | cons c t ih =>
    rw [splitOn]
    cases hsplit : splitOn b t with
    | nil => exact absurd hsplit (splitOn_ne_nil b t)
    | cons part parts =>
      rw [hsplit] at ih
      dsimp only
      split
      case isTrue hc => rw [join_cons_cons, ih, hc, List.nil_append, List.singleton_append]
      case isFalse => cases parts <;> simp_all [join_cons_cons]

/-- The parts of a text stand at the beginning of those of another one exactly if the texts are the
same, or the octet between parts follows the one text in the other. -/
theorem splitOn_prefix_iff : splitOn b s <+: splitOn b t ↔ t = s ∨ s ++ [b] <+: t := by
  constructor
  · rintro ⟨more, hmore⟩
    have ht : t = join [b] (splitOn b s ++ more) := by rw [hmore, join_splitOn]
    by_cases hnil : more = []
    · left
      rw [ht, hnil, List.append_nil, join_splitOn]
    · right
      rw [ht, join_append [b] (splitOn_ne_nil b s) hnil, join_splitOn]
      exact List.prefix_append _ _
  · rintro (rfl | ⟨rest, rfl⟩)
    · exact List.prefix_refl _
    · rw [List.append_assoc, List.singleton_append, splitOn_append_cons]
      exact List.prefix_append _ _

/-! ## Cutting at the last occurrence -/

theorem cutLast?_eq_none_iff : cutLast? b t = none ↔ b ∉ t := by
  induction t with
  | nil => simp [cutLast?]
  | cons c t ih =>
    rw [cutLast?, List.mem_cons, not_or, ← ih]
    cases cutLast? b t with
    | none => simp [eq_comm]
    | some parts => simp

theorem cutLast?_append_cons (front : Text) {back : Text} (h : b ∉ back) :
    cutLast? b (front ++ b :: back) = some (front, back) := by
  induction front with
  | nil => simp [cutLast?, cutLast?_eq_none_iff.mpr h]
  | cons c front ih => rw [List.cons_append, cutLast?, ih]

theorem of_cutLast? {front back : Text} (h : cutLast? b t = some (front, back)) :
    b ∉ back ∧ t = front ++ b :: back := by
  induction t generalizing front with
  | nil => cases h
  | cons c t ih =>
    rw [cutLast?] at h
    split at h
    case h_1 hcut =>
      cases h
      obtain ⟨hback, rfl⟩ := ih hcut
      exact ⟨hback, rfl⟩
    case h_2 hcut =>
      obtain ⟨rfl, hparts⟩ := Option.ite_none_right_eq_some.mp h
      cases hparts
      exact ⟨cutLast?_eq_none_iff.mp hcut, rfl⟩

end JvmLinkage.Text
