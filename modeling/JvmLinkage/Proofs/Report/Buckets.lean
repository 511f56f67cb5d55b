import JvmLinkage.Ascending
import Mathlib.Data.List.Dedup
import Mathlib.Data.List.Pairwise
import Mathlib.Data.List.Perm.Basic
import Mathlib.Logic.Function.Basic

/-!
# Buckets

Items are put into buckets by their keys, one item after the other. The buckets are then taken out
in an order that is left open, and sorted in a way that is left open for items that compare equal.
What comes out is settled all the same when the sorting tells the buckets apart.
-/

namespace JvmLinkage

variable {α β κ : Type}

/-! ## Sorting in any way -/

/-- A list is what sorting another one may give, in whatever order items that compare equal come. -/
structure Sorts (cmp : α → α → Ordering) (xs ys : List α) : Prop where
  perm : ys.Perm xs
  ascending : ys.Pairwise (cmp · · ≠ .gt)

namespace Ascending

variable {cmp : α → α → Ordering} {xs ys : List α}

theorem Ordered.eq_of_compare [Std.OrientedCmp cmp] (h : Ordered cmp xs) {x y : α} (hx : x ∈ xs)
    (hy : y ∈ xs) (heq : cmp x y = .eq) : x = y := by
  have : Std.Symm fun x y => cmp x y ≠ .eq := ⟨fun x y hne h => hne (Std.OrientedCmp.eq_symm h)⟩
  have hapart : xs.Pairwise fun x y => cmp x y ≠ .eq := h.imp fun hlt => by simp [hlt]
  by_contra hne
  exact hapart.forall hx hy hne heq

/-- A list with an ordered arrangement can be sorted to that one only. -/
theorem sorts_iff_eq [Std.OrientedCmp cmp] {zs : List α} (hzs : Ordered cmp zs)
    (hperm : zs.Perm xs) : Sorts cmp xs ys ↔ ys = zs := by
  constructor
  · rintro ⟨hys, hascending⟩
    have hzs' : zs.Pairwise (cmp · · ≠ .gt) := hzs.imp fun hlt => by simp [hlt]
    -- Two items that may stand either way round compare equal, and are the same item of `zs`.
    refine (hys.trans hperm.symm).eq_of_pairwise (fun y z hy hz hyz hzy => ?_) hascending hzs'
    have hy : y ∈ zs := ((hys.trans hperm.symm).mem_iff).mp hy
    refine hzs.eq_of_compare hy hz ?_
    have hswap : cmp z y = (cmp y z).swap := Std.OrientedCmp.eq_swap
    rw [hswap, ne_eq, Ordering.swap_eq_gt] at hzy
    cases hcmp : cmp y z with
    | lt => exact absurd hcmp hzy
    | eq => rfl
    | gt => exact absurd hcmp hyz
  · rintro rfl
    exact ⟨hperm, hzs.imp fun hlt => by simp [hlt]⟩

/-- Building an ordered list from distinct items loses none of them. -/
theorem ofList_perm [Std.TransCmp cmp] [Std.LawfulEqCmp cmp] (hxs : xs.Nodup) :
    (ofList cmp xs).Perm xs := by
  refine (List.perm_ext_iff_of_nodup (nodup_ofList cmp xs) hxs).mpr fun x => ?_
  exact mem_ofList_iff fun _ _ _ _ => Std.LawfulEqCmp.eq_of_compare

end Ascending

/-! ## Buckets by key -/

/-- What is made of keys is found again by the name that it bears. -/
theorem mem_map_iff_name {γ : Type} {ks : List κ} {make : κ → γ} (name : γ → κ)
    (hname : ∀ k, name (make k) = k) {x : γ} :
    x ∈ ks.map make ↔ name x ∈ ks ∧ x = make (name x) := by
  rw [List.mem_map]
  constructor
  · rintro ⟨k, hk, rfl⟩
    rw [hname]
    exact ⟨hk, rfl⟩
  · rintro ⟨hk, hx⟩
    exact ⟨name x, hk, hx.symm⟩

/-- Taking the items of a list key by key takes each of them once, and those with none of the keys
never. -/
theorem flatMap_filter_perm [DecidableEq κ] {key : α → κ} {ks : List κ} (hks : ks.Nodup)
    (xs : List α) :
    (ks.flatMap fun k => xs.filter (key · = k)).Perm (xs.filter (key · ∈ ks)) := by
  induction ks with
  | nil => simp
  | cons k ks ih =>
    obtain ⟨hk, hks⟩ := List.nodup_cons.mp hks
    let found := xs.filter (key · ∈ k :: ks)
    have hfirst : found.filter (key · = k) = xs.filter (key · = k) := by
      rw [List.filter_filter]
      exact List.filter_congr fun x _ => by simp +contextual
    have hrest : (found.filter fun x => !decide (key x = k)) = xs.filter (key · ∈ ks) := by
      rw [List.filter_filter]
      refine List.filter_congr fun x _ => ?_
      by_cases hx : key x = k <;> simp [hx, hk]
    calc
      _ = xs.filter (key · = k) ++ ks.flatMap fun k => xs.filter (key · = k) := List.flatMap_cons
      List.Perm _ (xs.filter (key · = k) ++ xs.filter (key · ∈ ks)) := (ih hks).append_left _
      _ = (found.filter (key · = k) ++ found.filter fun x => !decide (key x = k)) := by
        rw [hfirst, hrest]
      List.Perm _ found := List.filter_append_perm _ _

/-- The buckets that are in use, each under its key. -/
abbrev Buckets (κ β : Type) := κ → Option β

namespace Buckets

variable [DecidableEq κ]

/-- Puts an item into the bucket of its key, a new one if there is none. -/
def put (key : α → κ) (add : β → α → β) (new : β) (b : Buckets κ β) (x : α) : Buckets κ β :=
  Function.update b (key x) (some (add ((b (key x)).getD new) x))

/-- The buckets after items have been put into new ones. -/
def fill (key : α → κ) (add : β → α → β) (new : β) (xs : List α) : Buckets κ β :=
  xs.foldl (put key add new) fun _ => none

variable {key : α → κ} {add : β → α → β} {new : β} {b : Buckets κ β}

/-- What the items with a key come to in a bucket. -/
def content (key : α → κ) (add : β → α → β) (new : β) (xs : List α) : Buckets κ β := fun k =>
  match xs.filter (key · = k) with
  | [] => none
  | found => some (found.foldl add new)

theorem content_eq_some_iff {xs : List α} {k : κ} {v : β} :
    content key add new xs k = some v ↔
      (∃ x ∈ xs, key x = k) ∧ v = (xs.filter (key · = k)).foldl add new := by
  have hoccurs : (∃ x ∈ xs, key x = k) ↔ xs.filter (key · = k) ≠ [] := by
    simp [List.filter_eq_nil_iff]
  rw [hoccurs, content]
  cases xs.filter (key · = k) with
  | nil => simp
  | cons x found => simp [eq_comm]

/-- One more item changes the bucket of its key only. -/
theorem put_content (xs : List α) (x : α) :
    put key add new (content key add new xs) x = content key add new (xs ++ [x]) := by
  funext k
  rw [put, Function.update_apply]
  split
  case isTrue hk =>
    subst hk
    simp only [content, List.filter_append, List.filter_cons, List.filter_nil, decide_true,
      if_true]
    cases xs.filter (key · = key x) with
    | nil => rfl
    | cons y found => simp
  case isFalse hk =>
    have hkey : key x ≠ k := fun h => hk h.symm
    simp [content, hkey]

/-- Each bucket holds what the items with its key come to, in the order in which they were put. -/
theorem fill_eq_content (xs : List α) : fill key add new xs = content key add new xs := by
  -- The items put so far are any list, so that one more of them can move over in each step.
  have hrun : ∀ rest done : List α,
      rest.foldl (put key add new) (content key add new done) =
        content key add new (done ++ rest) := by
    intro rest
    induction rest with
    | nil => simp
    | cons x rest ih =>
      intro done
      rw [List.foldl_cons, put_content, ih, List.append_assoc, List.singleton_append]
  have hnew : (fun _ => none : Buckets κ β) = content key add new [] := rfl
  rw [fill, hnew, hrun, List.nil_append]

/-- The buckets in use and their keys, each bucket once, in some order. -/
structure Enumerates (b : Buckets κ β) (entries : List (κ × β)) : Prop where
  distinct : (entries.map (·.1)).Nodup
  mem_iff : ∀ k v, (k, v) ∈ entries ↔ b k = some v

namespace Enumerates

variable {entries : List (κ × β)} {xs : List α}

theorem eq_of_mem (h : (fill key add new xs).Enumerates entries) {e : κ × β} (he : e ∈ entries) :
    (∃ x ∈ xs, key x = e.1) ∧ e.2 = (xs.filter (key · = e.1)).foldl add new := by
  have hbucket := (h.mem_iff e.1 e.2).mp he
  rwa [fill_eq_content, content_eq_some_iff] at hbucket

/-- The keys of the buckets are those of the items. -/
theorem mem_keys_iff (h : (fill key add new xs).Enumerates entries) {k : κ} :
    k ∈ entries.map (·.1) ↔ k ∈ xs.map key := by
  rw [List.mem_map, List.mem_map]
  constructor
  · rintro ⟨e, he, rfl⟩
    exact (h.eq_of_mem he).1
  · intro hk
    refine ⟨(k, (xs.filter (key · = k)).foldl add new), ?_, rfl⟩
    rw [h.mem_iff, fill_eq_content, content_eq_some_iff]
    exact ⟨hk, rfl⟩

/-- What is made of each bucket is settled by its key. -/
theorem map_eq (h : (fill key add new xs).Enumerates entries) {γ : Type} (make : κ × β → γ) :
    entries.map make =
      (entries.map (·.1)).map fun k => make (k, (xs.filter (key · = k)).foldl add new) := by
  rw [List.map_map]
  refine List.map_congr_left fun e he => ?_
  rw [Function.comp_apply, ← (h.eq_of_mem he).2]

end Enumerates

/-- The buckets can be enumerated, as there are only those of the items. -/
theorem exists_enumerates (xs : List α) :
    ∃ entries, (fill key add new xs).Enumerates entries := by
  let keys := (xs.map key).dedup
  refine ⟨keys.map fun k => (k, (xs.filter (key · = k)).foldl add new), ?_, ?_⟩
  · rw [List.map_map]
    exact (List.map_id _).symm ▸ List.nodup_dedup _
  · intro k v
    have hkeys : k ∈ keys ↔ k ∈ xs.map key := List.mem_dedup
    rw [fill_eq_content, content_eq_some_iff, ← List.mem_map, ← hkeys]
    constructor
    · intro h
      obtain ⟨k, hk, heq⟩ := List.mem_map.mp h
      cases heq
      exact ⟨hk, rfl⟩
    · rintro ⟨hk, rfl⟩
      exact List.mem_map.mpr ⟨k, hk, rfl⟩

/-! ## Keys in ascending order -/

variable [Ord κ] [Std.TransOrd κ] [Std.LawfulEqOrd κ]

/-- Taking the items key by key takes each of them once. -/
theorem flatMap_filter_keys_perm (key : α → κ) (xs : List α) :
    ((Ascending.ofList compare (xs.map key)).flatMap fun k => xs.filter (key · = k)).Perm xs := by
  refine (flatMap_filter_perm (Ascending.nodup_ofList compare _) xs).trans (.of_eq ?_)
  rw [List.filter_eq_self]
  intro x hx
  exact decide_eq_true (Ascending.mem_ofList_compare_iff.mpr (List.mem_map_of_mem hx))

theorem Enumerates.keys_perm {entries : List (κ × β)} {xs : List α}
    (h : (fill key add new xs).Enumerates entries) :
    (Ascending.ofList compare (xs.map key)).Perm (entries.map (·.1)) := by
  refine (List.perm_ext_iff_of_nodup (Ascending.nodup_ofList compare _) h.distinct).mpr fun k => ?_
  rw [Ascending.mem_ofList_compare_iff, h.mem_keys_iff]

/-- Sorting what is made of the buckets by their keys has one outcome, however they are
enumerated. -/
theorem Enumerates.sorts_iff_eq {entries : List (κ × β)} {xs : List α} {γ : Type} {ys : List γ}
    (h : (fill key add new xs).Enumerates entries) {make : κ → γ} {name : γ → κ}
    (hname : ∀ k, name (make k) = k) :
    Sorts (compareOn name) ((entries.map (·.1)).map make) ys ↔
      ys = (Ascending.ofList compare (xs.map key)).map make := by
  refine Ascending.sorts_iff_eq ?_ (h.keys_perm.map make)
  rw [Ascending.Ordered, List.pairwise_map]
  refine (Ascending.ordered_ofList compare _).imp fun hlt => ?_
  rwa [compareOn, hname, hname]

end Buckets

end JvmLinkage
