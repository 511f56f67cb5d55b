/-!
# Ascending lists

Lists in strictly ascending order with respect to a comparison, built by insertion.
-/

namespace JvmLinkage.Ascending

variable {α : Type}

/-- Puts an item at its place; an item that compares equal to one already there is left out. -/
def insert (cmp : α → α → Ordering) (x : α) : List α → List α
  | [] => [x]
  | y :: ys =>
    match cmp x y with
    | .lt => x :: y :: ys
    | .eq => y :: ys
    | .gt => y :: insert cmp x ys

/-- The items in ascending order, the first of those that compare equal. -/
def ofList (cmp : α → α → Ordering) (xs : List α) : List α :=
  xs.foldl (fun sorted x => insert cmp x sorted) []

/-- Every item stands strictly before those that follow it. -/
abbrev Ordered (cmp : α → α → Ordering) (xs : List α) : Prop := xs.Pairwise (cmp · · = .lt)

/-! ## Building gives ordered lists -/

theorem mem_of_mem_insert {cmp : α → α → Ordering} {x z : α} {xs : List α}
    (h : z ∈ insert cmp x xs) : z = x ∨ z ∈ xs := by
  induction xs with
  | nil => simpa [insert] using h
  | cons y ys ih =>
    rw [insert] at h
    split at h
    · simpa using h
    · exact .inr h
    · rcases List.mem_cons.mp h with rfl | h
      · simp
      · rcases ih h with rfl | h <;> simp [*]

theorem ordered_insert {cmp : α → α → Ordering} [Std.TransCmp cmp] (x : α) {xs : List α}
    (h : Ordered cmp xs) : Ordered cmp (insert cmp x xs) := by
  induction xs with
  | nil => simp [insert, Ordered]
  | cons y ys ih =>
    obtain ⟨hy, hys⟩ := List.pairwise_cons.mp h
    rw [insert]
    split
    · rename_i hlt
      refine List.pairwise_cons.mpr ⟨?_, h⟩
      intro z hz
      rcases List.mem_cons.mp hz with rfl | hz
      · exact hlt
      · exact Std.TransCmp.lt_trans hlt (hy z hz)
    · exact h
    · rename_i hgt
      refine List.pairwise_cons.mpr ⟨?_, ih hys⟩
      intro z hz
      rcases mem_of_mem_insert hz with rfl | hz
      · exact Std.OrientedCmp.lt_of_gt hgt
      · exact hy z hz

theorem mem_of_mem_ofList {cmp : α → α → Ordering} {z : α} {xs : List α}
    (h : z ∈ ofList cmp xs) : z ∈ xs := by
  have key : ∀ (xs acc : List α),
      z ∈ xs.foldl (fun sorted x => insert cmp x sorted) acc → z ∈ acc ∨ z ∈ xs := by
    intro xs
    induction xs with
    | nil => simp
    | cons x xs ih =>
      intro acc h
      rcases ih _ h with h | h
      · rcases mem_of_mem_insert h with rfl | h <;> simp [*]
      · simp [h]
  simpa using key xs [] h

theorem ordered_ofList (cmp : α → α → Ordering) [Std.TransCmp cmp] (xs : List α) :
    Ordered cmp (ofList cmp xs) := by
  have key : ∀ (xs acc : List α), Ordered cmp acc →
      Ordered cmp (xs.foldl (fun sorted x => insert cmp x sorted) acc) := by
    intro xs
    induction xs with
    | nil => exact fun _ h => h
    | cons x xs ih => exact fun acc h => ih _ (ordered_insert x h)
  exact key xs [] .nil

variable {cmp : α → α → Ordering}

/-! ## Building from ordered lists -/

theorem insert_of_all_lt [Std.OrientedCmp cmp] {x : α} {xs : List α}
    (h : ∀ y ∈ xs, cmp y x = .lt) : insert cmp x xs = xs ++ [x] := by
  induction xs with
  | nil => rfl
  | cons y ys ih =>
    have hgt : cmp x y = .gt := Std.OrientedCmp.gt_of_lt (h y (by simp))
    have htail : insert cmp x ys = ys ++ [x] := ih fun z hz => h z (by simp [hz])
    simp [insert, hgt, htail]

/-- Building from a list that is in order gives the list back. -/
theorem ofList_of_ordered [Std.OrientedCmp cmp] {xs : List α} (h : Ordered cmp xs) :
    ofList cmp xs = xs := by
  have key : ∀ (xs acc : List α), Ordered cmp (acc ++ xs) →
      xs.foldl (fun sorted x => insert cmp x sorted) acc = acc ++ xs := by
    intro xs
    induction xs with
    | nil => simp
    | cons x xs ih =>
      intro acc hacc
      obtain ⟨-, -, hcross⟩ := List.pairwise_append.mp hacc
      have hlast : insert cmp x acc = acc ++ [x] :=
        insert_of_all_lt fun y hy => hcross y hy x (by simp)
      rw [List.foldl_cons, hlast, ih (acc ++ [x]) (by simpa using hacc)]
      simp
  exact key xs [] h

/-! ## Which items are there -/

theorem mem_insert_iff {x z : α} {ys : List α} (h : ∀ y ∈ ys, cmp x y = .eq → x = y) :
    z ∈ insert cmp x ys ↔ z = x ∨ z ∈ ys := by
  induction ys with
  | nil => simp [insert]
  | cons y ys ih =>
    have htail := ih fun w hw => h w (by simp [hw])
    rw [insert]
    split
    case h_1 => simp
    case h_2 heq => simp [h y (by simp) heq]
    case h_3 =>
      rw [List.mem_cons, htail, List.mem_cons]
      exact or_left_comm

/-- If items that compare equal are equal, none of them is left out. -/
theorem mem_ofList_iff {z : α} {xs : List α} (h : ∀ x ∈ xs, ∀ y ∈ xs, cmp x y = .eq → x = y) :
    z ∈ ofList cmp xs ↔ z ∈ xs := by
  have key : ∀ (xs acc : List α), (∀ x ∈ xs, ∀ y ∈ acc ++ xs, cmp x y = .eq → x = y) →
      (z ∈ xs.foldl (fun sorted x => insert cmp x sorted) acc ↔ z ∈ acc ∨ z ∈ xs) := by
    intro xs
    induction xs with
    | nil => simp
    | cons x xs ih =>
      intro acc hall
      have hinsert : z ∈ insert cmp x acc ↔ z = x ∨ z ∈ acc :=
        mem_insert_iff fun y hy => hall x (by simp) y (by simp [hy])
      have hrest : ∀ w ∈ xs, ∀ y ∈ insert cmp x acc ++ xs, cmp w y = .eq → w = y := by
        intro w hw y hy
        refine hall w (by simp [hw]) y ?_
        rcases List.mem_append.mp hy with hy | hy
        · rcases mem_of_mem_insert hy with rfl | hy <;> simp [*]
        · simp [hy]
      rw [List.foldl_cons, ih _ hrest, hinsert, List.mem_cons, or_comm (a := z = x), or_assoc]
  rw [ofList, key xs [] h]
  simp

theorem mem_ofList_compare_iff [Ord α] [Std.LawfulEqOrd α] {xs : List α} {x : α} :
    x ∈ ofList compare xs ↔ x ∈ xs :=
  mem_ofList_iff fun _ _ _ _ => Std.LawfulEqOrd.eq_of_compare

/-! ## No item is there twice -/

theorem Ordered.nodup [Std.ReflCmp cmp] {xs : List α} (h : Ordered cmp xs) : xs.Nodup := by
  refine h.imp ?_
  rintro x y hlt rfl
  have hself : cmp x x = .eq := Std.ReflCmp.compare_self
  simp [hself] at hlt

theorem nodup_ofList (cmp : α → α → Ordering) [Std.TransCmp cmp] (xs : List α) :
    (ofList cmp xs).Nodup :=
  (ordered_ofList cmp xs).nodup

end JvmLinkage.Ascending
