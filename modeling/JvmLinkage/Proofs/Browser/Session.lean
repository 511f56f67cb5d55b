import Mathlib.Tactic.SplitIfs
import JvmLinkage.Browser.View
import JvmLinkage.Sequence

/-!
# Sessions with the browser

A session is a row of events and of looks at the screen. Every step either leaves the list and its
filter alone or fills the list with what the filter admits, and it changes the chosen conflict only
into one of the list. From this follows what holds at every moment of a session, with any kind of
list that keeps its conflicts. Looking at the details shows a window of their rows.
-/

namespace JvmLinkage

/-! ## Numbered choices -/

namespace Sequence

/-- Choices have the numbers up to a last one, and going on and back follows the numbers round the
ends. -/
structure Numbers {α : Type} (index : α → Nat) (last : Nat) (next previous : α → α) : Prop where
  injective : ∀ a b, index a = index b → a = b
  index_le : ∀ a, index a ≤ last
  next? : ∀ a, Sequence.next? (.ofNat (index a)) (.ofNat last) = some (.ofNat (index (next a)))
  previous? : ∀ a,
    Sequence.previous? (.ofNat (index a)) (.ofNat last) = some (.ofNat (index (previous a)))

end Sequence

theorem Tab.numbers : Sequence.Numbers Tab.index 2 Tab.next Tab.previous where
  injective a b := by cases a <;> cases b <;> decide
  index_le a := by cases a <;> decide
  next? a := by cases a <;> decide
  previous? a := by cases a <;> decide

/-- The position of a filter. -/
def CategoryFilter.index : CategoryFilter → Nat
  | every => 0
  | classes => 1
  | methods => 2
  | fields => 3

theorem CategoryFilter.numbers :
    Sequence.Numbers CategoryFilter.index 3 CategoryFilter.next CategoryFilter.previous where
  injective a b := by cases a <;> cases b <;> decide
  index_le a := by cases a <;> decide
  next? a := by cases a <;> decide
  previous? a := by cases a <;> decide

/-! ## Lists that keep their conflicts -/

/-- Only filling a list changes its conflicts, and the one under the cursor is among them. -/
class LawfulListWidget (L : Type) [ListWidget L] : Prop where
  items_fill (l : L) (conflicts : List Conflict) :
    ListWidget.items (ListWidget.fill l conflicts) = conflicts
  items_resize (l : L) (width height : Int) :
    ListWidget.items (ListWidget.resize l width height) = ListWidget.items l
  items_key (l : L) (k : Key) : ListWidget.items (ListWidget.key l k).1 = ListWidget.items l
  items_notice (l : L) : ListWidget.items (ListWidget.notice l).1 = ListWidget.items l
  mem_of_current? (l : L) {c : Conflict} :
    ListWidget.current? l = some c → c ∈ ListWidget.items l

namespace ConflictList

theorem items_searchKey (l : ConflictList) (isEmpty : Bool) (k : Key) :
    (l.searchKey isEmpty k).1.items = l.items := by
  unfold searchKey
  split
  all_goals first | rfl | (dsimp only; split <;> rfl)

theorem items_browseKey (l : ConflictList) (k : Key) : (l.browseKey k).1.items = l.items := by
  unfold browseKey
  dsimp only
  split_ifs <;> rfl

instance : LawfulListWidget ConflictList where
  items_fill _ _ := rfl
  items_resize _ _ _ := rfl
  items_key l k := by
    change (l.key k).1.items = l.items
    unfold key
    split
    · exact l.items_searchKey _ k
    · exact l.items_browseKey k
  items_notice _ := rfl
  mem_of_current? _ _ h := List.mem_of_getElem? h

end ConflictList

namespace Browser

variable {L : Type} {b b' : Browser L}

/-! ## The window on the details -/

/-- The rows from `first` to `last`, of which there are `count`, are those that a screen with room for
some of them shows. -/
structure IsWindow (count : Nat) (room first last : Int) : Prop where
  first_nonneg : 0 ≤ first
  first_le : first ≤ last
  last_le : last ≤ count
  fits : last - first ≤ room
  first_in_range : first ≤ max (count - room) 0

/-- The positions between which rows are cut out are in range, and so is the new scroll position. -/
theorem isWindow_clampedScroll (hscroll : 0 ≤ b.scroll) (count : Nat) :
    let first := b.clampedScroll count
    IsWindow count (max (b.height - 6) 1) first (min (first + max (b.height - 6) 1) count) := by
  have hfirst : 0 ≤ b.clampedScroll count ∧
      b.clampedScroll count ≤ max (count - max (b.height - 6) 1) 0 := by
    unfold clampedScroll rowsWithin
    dsimp only
    split <;> omega
  exact ⟨hfirst.1, by omega, by omega, by omega, hfirst.2⟩

theorem IsWindow.slice?_eq {α : Type} {items : List α} {room first last : Int}
    (h : IsWindow items.length room first last) :
    slice? items first last = some (items.extract first.toNat last.toNat) :=
  if_pos ⟨h.first_nonneg, h.first_le, h.last_le⟩

theorem detailsView?_of_selected (hscroll : 0 ≤ b.scroll) {c : Conflict}
    (hselected : b.selected = some c) :
    let rows := detailRows c b.input.reachable b.width
    ∃ first last, IsWindow rows.length (max (b.height - 6) 1) first last ∧
      b.detailsView? = some (rowLines (rows.extract first.toNat last.toNat),
        { b with scroll := first }) := by
  intro rows
  have hwindow := isWindow_clampedScroll hscroll rows.length
  refine ⟨_, _, hwindow, ?_⟩
  have hslice := hwindow.slice?_eq
  simp only [detailsView?, hselected, rowsWithin]
  rw [hslice, Option.map_some]

theorem view?_of_tab (htab : b.tab = .details) (hwidth : 0 < b.width) :
    b.view? = b.detailsView?.map fun (lines, b') => (b.headerLine :: lines, b') := by
  rw [view?, if_neg (by omega), if_neg (by omega), htab]

variable [ListWidget L]

/-! ## What a step can do -/

/-- A step leads from one state to another: the list keeps its conflicts along with the filter, or is
filled with what the filter admits, and a conflict that is newly chosen is one of the list. -/
structure Leads (b b' : Browser L) : Prop where
  input_eq : b'.input = b.input
  width_nonneg : 0 ≤ b.width → 0 ≤ b'.width
  scroll_nonneg : 0 ≤ b.scroll → 0 ≤ b'.scroll
  items_eq : b'.filter = b.filter ∧ ListWidget.items b'.list = ListWidget.items b.list ∨
    ListWidget.items b'.list = admitted b.input b'.filter
  selected_eq : b'.selected = b.selected ∨
    ∃ c ∈ ListWidget.items b.list, b'.selected = some c

/-- A step that at most turns to a tab and scrolls. -/
theorem leads_scrolled (b : Browser L) (t : Tab) {scroll : Int}
    (h : 0 ≤ b.scroll → 0 ≤ scroll) : Leads b { b with tab := t, scroll } :=
  ⟨rfl, id, h, .inl ⟨rfl, rfl⟩, .inl rfl⟩

theorem Leads.refl (b : Browser L) : Leads b b := leads_scrolled b b.tab id

theorem leads_detailsKey (b : Browser L) (k : Key) : Leads b (b.detailsKey k) := by
  unfold detailsKey pageSize
  split_ifs
  · exact leads_scrolled b .conflicts id
  -- The other keys scroll, and none of them beyond the first row.
  all_goals first | exact .refl b | exact leads_scrolled b b.tab (by omega)

theorem leads_inList {happens : L → L × Bool}
    (h : ∀ l, ListWidget.items (happens l).1 = ListWidget.items l) (b : Browser L) :
    Leads b (b.inList happens).1 :=
  ⟨rfl, id, id, .inl ⟨rfl, h b.list⟩, .inl rfl⟩

/-- With a scroll position that is not negative there are always details to show. -/
theorem exists_detailsView? (hscroll : 0 ≤ b.scroll) :
    ∃ lines b', b.detailsView? = some (lines, b') ∧ Leads b b' := by
  cases hselected : b.selected with
  | none => exact ⟨[noSelectionLine], b, by simp only [detailsView?, hselected], .refl b⟩
  | some c =>
    obtain ⟨first, last, hwindow, hview⟩ := detailsView?_of_selected hscroll hselected
    exact ⟨_, _, hview, leads_scrolled b b.tab fun _ => hwindow.first_nonneg⟩

/-- Something can be shown at every width and scroll position that are not negative. -/
theorem exists_view? (hwidth : 0 ≤ b.width) (hscroll : 0 ≤ b.scroll) :
    ∃ lines b', b.view? = some (lines, b') ∧ Leads b b' := by
  unfold view?
  rw [if_neg (show ¬ b.width < 0 by omega)]
  split
  · exact ⟨_, _, rfl, .refl b⟩
  · cases b.tab with
    | dashboard => exact ⟨_, _, rfl, .refl b⟩
    | conflicts =>
      dsimp only
      split
      · exact ⟨_, _, rfl, .refl b⟩
      · exact ⟨_, _, rfl, .refl b⟩
    | details =>
      obtain ⟨lines, b', hview, hleads⟩ := exists_detailsView? hscroll
      exact ⟨b.headerLine :: lines, b', by simp only [hview, Option.map_some], hleads⟩

variable [LawfulListWidget L]

theorem leads_selected {c : Conflict} (h : ListWidget.current? b.list = some c) (t : Tab) :
    Leads b { b with selected := some c, tab := t, scroll := 0 } :=
  ⟨rfl, id, fun _ => Int.le_refl 0, .inl ⟨rfl, rfl⟩,
    .inr ⟨c, LawfulListWidget.mem_of_current? b.list h, rfl⟩⟩

theorem leads_refresh (b : Browser L) (f : CategoryFilter) :
    Leads b (refresh { b with filter := f }) :=
  ⟨rfl, id, id, .inr (LawfulListWidget.items_fill ..), .inl rfl⟩

theorem leads_switchTab (b : Browser L) (t : Tab) : Leads b (b.switchTab t) := by
  unfold switchTab selectCurrent
  dsimp only
  split_ifs
  · split
    · exact leads_selected ‹_› t
    · exact leads_scrolled b t fun _ => Int.le_refl 0
  · exact leads_scrolled b t fun _ => Int.le_refl 0

theorem leads_conflictsKey (b : Browser L) (k : Key) : Leads b (b.conflictsKey k).1 := by
  unfold conflictsKey
  split_ifs
  · exact leads_refresh b _
  · exact leads_refresh b _
  · split
    · exact leads_selected ‹_› .details
    · exact .refl b
  · exact leads_inList (fun l => LawfulListWidget.items_key l k) b

theorem leads_press (b : Browser L) (k : Key) : Leads b (b.press k).1 := by
  unfold press
  split_ifs
  · exact leads_inList (fun l => LawfulListWidget.items_key l k) b
  · exact .refl b
  · exact ⟨rfl, id, id, .inl ⟨rfl, rfl⟩, .inl rfl⟩
  iterate 5 exact leads_switchTab b _
  · split
    · exact .refl b
    · exact leads_conflictsKey b k
    · exact leads_detailsKey b k

theorem leads_handle (b : Browser L) {e : BrowserEvent}
    (h : ∀ width height, e = .resize width height → 0 ≤ width) : Leads b (b.handle e).1 := by
  cases e with
  | resize width height =>
    exact ⟨rfl, fun _ => h width height rfl, id, .inl ⟨rfl, LawfulListWidget.items_resize ..⟩, .inl rfl⟩
  | key k => exact leads_press b k
  | other =>
    unfold handle
    split_ifs
    · exact leads_inList LawfulListWidget.items_notice b
    · exact .refl b

/-! ## Sessions -/

end Browser

/-- A step of a session: something happens, or the screen is looked at. -/
inductive BrowserStep where
  | event (e : BrowserEvent)
  | look

/-- No size in the step is negative. -/
def BrowserStep.Sized : BrowserStep → Prop
  | .event (.resize width height) => 0 ≤ width ∧ 0 ≤ height
  | _ => True

namespace Browser

/-- The browser after a step, unless nothing can be shown. -/
def step? {L : Type} [ListWidget L] (b : Browser L) : BrowserStep → Option (Browser L)
  | .event e => some (b.handle e).1
  | .look => b.view?.map Prod.snd

/-- The browser after the steps of a session. -/
def after? {L : Type} [ListWidget L] (b : Browser L) (steps : List BrowserStep) :
    Option (Browser L) :=
  steps.foldlM step? b

variable {L : Type} [ListWidget L] {b b' : Browser L} {input : BrowserInput}

/-- What holds at every moment of a session. -/
structure Consistent (input : BrowserInput) (b : Browser L) : Prop where
  input_eq : b.input = input
  width_nonneg : 0 ≤ b.width
  scroll_nonneg : 0 ≤ b.scroll
  items_eq : ListWidget.items b.list = input.conflicts.filter fun c => b.filter.admits c.category
  selected_mem : ∀ c, b.selected = some c → c ∈ input.conflicts

theorem Consistent.of_leads (hb : Consistent input b) (h : Leads b b') : Consistent input b' where
  input_eq := h.input_eq.trans hb.input_eq
  width_nonneg := h.width_nonneg hb.width_nonneg
  scroll_nonneg := h.scroll_nonneg hb.scroll_nonneg
  items_eq := by
    rcases h.items_eq with ⟨hfilter, hitems⟩ | hitems
    · rw [hitems, hfilter, hb.items_eq]
    · rw [hitems, hb.input_eq]
      rfl
  selected_mem c hc := by
    rcases h.selected_eq with hsame | ⟨d, hd, hselected⟩
    · exact hb.selected_mem c (hsame ▸ hc)
    · rw [hselected] at hc
      cases hc
      rw [hb.items_eq] at hd
      exact (List.mem_filter.mp hd).1

theorem Leads.isSome_selected (h : Leads b b') (hb : b.selected.isSome) : b'.selected.isSome := by
  rcases h.selected_eq with hsame | ⟨c, -, hselected⟩
  · rwa [hsame]
  · simp [hselected]

variable [LawfulListWidget L]

theorem consistent_start (input : BrowserInput) : Consistent input (start input : Browser L) where
  input_eq := rfl
  width_nonneg := Int.le_refl 0
  scroll_nonneg := Int.le_refl 0
  items_eq := LawfulListWidget.items_fill ListWidget.empty (admitted input .every)
  selected_mem c hc := by cases hc

theorem Consistent.exists_step (hb : Consistent input b) {step : BrowserStep} (hstep : step.Sized) :
    ∃ b', b.step? step = some b' ∧ Leads b b' := by
  cases step with
  | event e =>
    refine ⟨_, rfl, leads_handle b ?_⟩
    rintro width height rfl
    exact hstep.1
  | look =>
    obtain ⟨lines, b', hview, hleads⟩ := exists_view? hb.width_nonneg hb.scroll_nonneg
    exact ⟨b', by rw [step?, hview, Option.map_some], hleads⟩

/-- What every step keeps, a whole session keeps. -/
theorem Consistent.exists_after (hb : Consistent input b) {steps : List BrowserStep}
    (hsteps : ∀ step ∈ steps, step.Sized) :
    ∃ b', b.after? steps = some b' ∧ Consistent input b' ∧
      (b.selected.isSome → b'.selected.isSome) := by
  induction steps generalizing b with
  | nil => exact ⟨b, rfl, hb, id⟩
  | cons step steps ih =>
    obtain ⟨b₁, hstep, hleads⟩ := hb.exists_step (hsteps step (List.mem_cons_self ..))
    obtain ⟨b', hafter, hb', hkept⟩ := ih (hb.of_leads hleads)
      fun later hlater => hsteps later (List.mem_cons_of_mem _ hlater)
    refine ⟨b', ?_, hb', fun h => hkept (hleads.isSome_selected h)⟩
    rw [after?, List.foldlM_cons, hstep]
    exact hafter

/-- Whatever happens in a session, with sizes that are not negative: something can be shown at any
time, the list holds what the filter admits of the conflicts in their order, the chosen conflict is
one of them and stays chosen until another one is, and the details of it are shown through a window
into their rows, to whose start the scroll position is brought back. -/
theorem session_consistent (input : BrowserInput) (steps : List BrowserStep)
    (hsteps : ∀ step ∈ steps, step.Sized) :
    Sequence.Numbers Tab.index 2 Tab.next Tab.previous ∧
    Sequence.Numbers CategoryFilter.index 3 CategoryFilter.next CategoryFilter.previous ∧
    ∃ b : Browser L, (start input).after? steps = some b ∧
      b.tab ∈ [Tab.dashboard, .conflicts, .details] ∧
      b.filter ∈ [CategoryFilter.every, .classes, .methods, .fields] ∧
      ListWidget.items b.list = input.conflicts.filter (fun c => b.filter.admits c.category) ∧
      (∀ c, b.selected = some c → c ∈ input.conflicts) ∧
      (∀ later : List BrowserStep, (∀ step ∈ later, step.Sized) →
        ∃ b', b.after? later = some b' ∧ (b.selected.isSome → b'.selected.isSome)) ∧
      0 ≤ b.scroll ∧
      ∀ c, b.tab = .details → b.width ≠ 0 → b.selected = some c →
        let rows := detailRows c input.reachable b.width
        ∃ first last, IsWindow rows.length (max (b.height - 6) 1) first last ∧
          b.view? = some (b.headerLine :: rowLines (rows.extract first.toNat last.toNat),
            { b with scroll := first }) := by
  refine ⟨Tab.numbers, CategoryFilter.numbers, ?_⟩
  obtain ⟨b, hafter, hb, -⟩ := (consistent_start (L := L) input).exists_after hsteps
  refine ⟨b, hafter, ?_, ?_, hb.items_eq, hb.selected_mem, ?_, hb.scroll_nonneg, ?_⟩
  · cases b.tab <;> decide
  · cases b.filter <;> decide
  · intro later hlater
    obtain ⟨b', hafter', -, hkept⟩ := hb.exists_after hlater
    exact ⟨b', hafter', hkept⟩
  · intro c htab hwidth hselected
    have hpositive : 0 < b.width := by
      have := hb.width_nonneg
      omega
    obtain ⟨first, last, hwindow, hview⟩ := detailsView?_of_selected hb.scroll_nonneg hselected
    rw [← hb.input_eq]
    exact ⟨first, last, hwindow, by rw [view?_of_tab htab hpositive, hview, Option.map_some]⟩

/-- A call of a method that is not there. -/
def sampleConflict : Conflict where
  category := .methodNotFound
  dependency := ⟨⟨"a.Main"⟩, ⟨"main", [], .void, true⟩, 7, ⟨"b.Base"⟩,
    some ⟨"run", [], .void, true⟩, none⟩
  usedBy := "project"
  existsIn := "library"
  reason := "Method not found: b.Base.run()"

def sampleInput : BrowserInput :=
  ⟨⟨"project", ["project"], 2, 2, 1, 0, ⟨0⟩⟩,
    [{ sampleConflict with category := .classNotFound }, sampleConflict], none⟩

/-- The only conflict about a method is chosen, its details are scrolled far beyond their end, and the
screen is looked at. -/
def sampleSteps : List BrowserStep :=
  [.look, .event (.resize 60 9), .event (.key (.typed "2")), .event (.key .right),
    .event (.key .right), .event (.key .enter), .event (.key .pageDown), .event (.key .pageDown),
    .look]

theorem sample_session_consistent :
    (∀ step ∈ sampleSteps, step.Sized) ∧
    ∃ b : Browser, (start sampleInput).after? sampleSteps = some b ∧
      b.filter = .methods ∧ b.list.items = [sampleConflict] ∧ b.selected = some sampleConflict ∧
      b.scroll = 6 ∧
      ∃ first last, IsWindow (detailRows sampleConflict none 60).length 3 first last ∧
        b.view? = some (b.headerLine ::
          rowLines ((detailRows sampleConflict none 60).extract first.toNat last.toNat),
            { b with scroll := first }) := by
  have hsteps : ∀ step ∈ sampleSteps, step.Sized := by
    simp [sampleSteps, BrowserStep.Sized]
  have hrun : ((start sampleInput : Browser).after? sampleSteps).map
      (fun b => (b.tab, b.filter, b.selected, b.scroll, b.width, b.height)) =
        some (.details, .methods, some sampleConflict, 6, 60, 9) := by decide +kernel
  obtain ⟨-, -, b, hafter, -, -, hitems, -, -, -, hdetails⟩ :=
    session_consistent (L := ConflictList) sampleInput sampleSteps hsteps
  rw [hafter] at hrun
  simp only [Option.map_some, Option.some.injEq, Prod.mk.injEq] at hrun
  obtain ⟨htab, hfilter, hselected, hscroll, hwidth, hheight⟩ := hrun
  refine ⟨hsteps, b, hafter, hfilter, ?_, hselected, hscroll, ?_⟩
  · rw [hfilter] at hitems
    exact hitems
  · obtain ⟨first, last, hwindow, hview⟩ :=
      hdetails sampleConflict htab (by rw [hwidth]; decide) hselected
    rw [hwidth, hheight] at hwindow
    rw [hwidth] at hview
    exact ⟨first, last, hwindow, by rw [hview, hwidth]; rfl⟩

end Browser

end JvmLinkage
