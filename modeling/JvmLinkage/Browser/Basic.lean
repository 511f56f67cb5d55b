import JvmLinkage.Linkage.Conflict
import JvmLinkage.Report.Group

/-!
# The conflict browser

The browser shows a check on three tabs: a dashboard, a list of conflicts that can be narrowed to
one category, and the details of one conflict. How a list answers to keys is a matter of the kind of
list that the browser works with.
-/

namespace JvmLinkage

/-- A key of the keyboard; characters come as text. -/
inductive Key where
  | tab | shiftTab | left | right | up | down | pageUp | pageDown | enter | escape | interrupt
  | home | stop
  | typed (t : Text)
  deriving DecidableEq, Repr, Inhabited

/-- The key with a name; every other name is the text of typed characters. -/
def Key.ofName (name : Text) : Key :=
  let named : List (Text × Key) :=
    [("tab", .tab), ("shift+tab", .shiftTab), ("left", .left), ("right", .right), ("up", .up),
      ("down", .down), ("pgup", .pageUp), ("pgdown", .pageDown), ("enter", .enter),
      ("esc", .escape), ("ctrl+c", .interrupt), ("home", .home), ("end", .stop)]
  (named.lookup name).getD (.typed name)

/-- Whether the key is the typed character `c`. -/
def Key.isTyped (k : Key) (c : String) : Bool := k = .typed (Text.ofString c)

/-- The tabs of the browser. -/
inductive Tab where
  | dashboard | conflicts | details
  deriving DecidableEq, Repr, Inhabited

namespace Tab

/-- The tabs from left to right. -/
def all : List Tab := [dashboard, conflicts, details]

/-- The tab to the right, coming round at the end. -/
def next : Tab → Tab
  | dashboard => conflicts
  | conflicts => details
  | details => dashboard

/-- The tab to the left, coming round at the start. -/
def previous : Tab → Tab
  | dashboard => details
  | conflicts => dashboard
  | details => conflicts

/-- The position of a tab. -/
def index : Tab → Nat
  | dashboard => 0
  | conflicts => 1
  | details => 2

end Tab

/-- Which categories the list of conflicts shows. -/
inductive CategoryFilter where
  | every | classes | methods | fields
  deriving DecidableEq, Repr, Inhabited

namespace CategoryFilter

/-- The word for a filter. -/
def shown : CategoryFilter → Text
  | every => "all"
  | classes => "classes"
  | methods => "methods"
  | fields => "fields"

/-- Whether conflicts of a category are shown. -/
def admits (f : CategoryFilter) (c : Category) : Bool :=
  match f with
  | every => true
  | classes => c = .classNotFound
  | methods => c = .methodNotFound
  | fields => c = .fieldNotFound

/-- The filter after this one, coming round at the end. -/
def next : CategoryFilter → CategoryFilter
  | every => classes
  | classes => methods
  | methods => fields
  | fields => every

/-- The filter before this one, coming round at the start. -/
def previous : CategoryFilter → CategoryFilter
  | every => fields
  | classes => every
  | methods => classes
  | fields => methods

end CategoryFilter

/-! ## Lists -/

/-- What the browser asks of a list of conflicts on the screen. A list may ask to leave the browser. -/
class ListWidget (L : Type) where
  /-- A list without conflicts. -/
  empty : L
  /-- The conflicts of a list. -/
  items : L → List Conflict
  /-- The conflict under the cursor. -/
  current? : L → Option Conflict
  /-- Whether a search is being typed. -/
  isSearching : L → Bool
  /-- Gives a list other conflicts, with the cursor at the top. -/
  fill : L → List Conflict → L
  /-- Gives a list a width and a height. -/
  resize : L → Int → Int → L
  /-- What a key does in a list. -/
  key : L → Key → L × Bool
  /-- What anything else that happens does in a list. -/
  notice : L → L × Bool

/-- Whether a search is under way in a list. -/
inductive SearchState where
  | off
  | typing (isEmpty : Bool)
  | applied
  deriving DecidableEq, Repr, Inhabited

/-- A list of conflicts with a cursor. -/
structure ConflictList where
  items : List Conflict
  cursor : Nat
  search : SearchState
  deriving DecidableEq, Repr

namespace ConflictList

/-- The conflict under the cursor. -/
def current? (l : ConflictList) : Option Conflict := l.items[l.cursor]?

/-- Whether a search is being typed. -/
def isSearching (l : ConflictList) : Bool :=
  match l.search with
  | .typing _ => true
  | _ => false

/-- Gives the list other conflicts, with the cursor at the top. -/
def fill (l : ConflictList) (items : List Conflict) : ConflictList := { l with items, cursor := 0 }

/-- Ends a search. -/
def cancelSearch (l : ConflictList) : ConflictList := { l with search := .off }

/-- What a key does while a search is typed: leave, accept, or become part of the search. -/
def searchKey (l : ConflictList) (isEmpty : Bool) (k : Key) : ConflictList × Bool :=
  match k with
  | .interrupt => (l, true)
  | .escape => (l.cancelSearch, false)
  | .enter | .tab | .shiftTab | .up | .down =>
    (if isEmpty then l else { l with search := .applied }, false)
  | .typed _ => ({ l with search := .typing false }, false)
  | _ => (l, false)

/-- What a key does in the list; the flag asks to leave the browser. All conflicts are on one page,
so keys that turn pages do nothing. -/
def browseKey (l : ConflictList) (k : Key) : ConflictList × Bool :=
  let last := l.items.length - 1
  if k = .interrupt then (l, true)
  else if k = .escape then
    if l.search = .applied then (l.cancelSearch, false) else (l, true)
  else if k = .up || k.isTyped "k" then ({ l with cursor := l.cursor - 1 }, false)
  else if k = .down || k.isTyped "j" then ({ l with cursor := min (l.cursor + 1) last }, false)
  else if k = .home || k.isTyped "g" then ({ l with cursor := 0 }, false)
  else if k = .stop || k.isTyped "G" then ({ l with cursor := last }, false)
  else if k.isTyped "/" && !l.items.isEmpty then
    ({ l with cursor := 0, search := .typing (l.search ≠ .applied) }, false)
  else (l, false)

/-- What a key does in the list; the flag asks to leave the browser. -/
def key (l : ConflictList) (k : Key) : ConflictList × Bool :=
  match l.search with
  | .typing isEmpty => l.searchKey isEmpty k
  | _ => l.browseKey k

-- All conflicts are on one page, whatever the size of the list.
instance : ListWidget ConflictList where
  empty := ⟨[], 0, .off⟩
  items := items
  current? := current?
  isSearching := isSearching
  fill := fill
  resize l _ _ := l
  key := key
  notice l := (l, false)

end ConflictList

/-! ## The browser -/

/-- What a check hands to the browser. -/
structure BrowserInput where
  summary : Summary
  conflicts : List Conflict
  reachable : Option ReachableSet

/-- The state of the browser with a kind of list. -/
structure Browser (L : Type := ConflictList) where
  input : BrowserInput
  tab : Tab
  width : Int
  height : Int
  filter : CategoryFilter
  list : L
  selected : Option Conflict
  scroll : Int
  fullHelp : Bool

/-- What happens to the browser. -/
inductive BrowserEvent where
  | resize (width height : Int)
  | key (k : Key)
  | other

namespace Browser

variable {L : Type}

/-- The conflicts that a filter admits. -/
def admitted (input : BrowserInput) (f : CategoryFilter) : List Conflict :=
  input.conflicts.filter fun c => f.admits c.category

/-- The number of rows below the tabs on a screen of a height. -/
def rowsWithin (height : Int) : Int := max (height - 6) 1

/-- The heading of the list. -/
def listTitle (b : Browser L) : Text := "Conflicts (" ++ b.filter.shown ++ ")"

/-- The number of lines that a page key scrolls. -/
def pageSize : Int := 10

/-- What a key does on the tab of details. -/
def detailsKey (b : Browser L) (k : Key) : Browser L :=
  if k = .escape then { b with tab := .conflicts }
  else if k = .up || k.isTyped "k" then
    if 0 < b.scroll then { b with scroll := b.scroll - 1 } else b
  else if k = .down || k.isTyped "j" then { b with scroll := b.scroll + 1 }
  else if k = .pageUp || k.isTyped "b" then { b with scroll := max (b.scroll - pageSize) 0 }
  else if k = .pageDown || k.isTyped "f" then { b with scroll := b.scroll + pageSize }
  else b

variable [ListWidget L]

/-- Fills the list anew for the filter, with the cursor at the top. -/
def refresh (b : Browser L) : Browser L :=
  { b with list := ListWidget.fill b.list (admitted b.input b.filter) }

/-- The browser at its start. -/
def start (input : BrowserInput) : Browser L :=
  { input, tab := .dashboard, width := 0, height := 0, filter := .every,
    list := ListWidget.fill ListWidget.empty (admitted input .every), selected := none, scroll := 0,
    fullHelp := false }

/-- Remembers the conflict under the cursor, if there is one. -/
def selectCurrent (b : Browser L) : Browser L :=
  match ListWidget.current? b.list with
  | some c => { b with selected := some c }
  | none => b

/-- Turns to a tab. The details show the conflict under the cursor unless one was chosen. -/
def switchTab (b : Browser L) (t : Tab) : Browser L :=
  let b := if t = .details && b.selected.isNone then b.selectCurrent else b
  { b with tab := t, scroll := 0 }

/-- Leaves it to the list what happens. -/
def inList (b : Browser L) (happens : L → L × Bool) : Browser L × Bool :=
  let (list, quit) := happens b.list
  ({ b with list }, quit)

/-- Passes a key to the list. -/
def listKey (b : Browser L) (k : Key) : Browser L × Bool := b.inList fun l => ListWidget.key l k

/-- What a key does on the tab of conflicts. -/
def conflictsKey (b : Browser L) (k : Key) : Browser L × Bool :=
  if k = .left || k.isTyped "h" then ({ b with filter := b.filter.previous }.refresh, false)
  else if k = .right || k.isTyped "l" then ({ b with filter := b.filter.next }.refresh, false)
  else if k = .enter then
    match ListWidget.current? b.list with
    | some c => ({ b with selected := some c, tab := .details, scroll := 0 }, false)
    | none => (b, false)
  else b.listKey k

/-- Whether a search in the list takes every key. -/
def isSearching (b : Browser L) : Bool := ListWidget.isSearching b.list

/-- What a key does; the flag asks to leave the browser. -/
def press (b : Browser L) (k : Key) : Browser L × Bool :=
  if b.tab = .conflicts && b.isSearching then b.listKey k
  else if k = .interrupt || k.isTyped "q" then (b, true)
  else if k.isTyped "?" then ({ b with fullHelp := !b.fullHelp }, false)
  else if k.isTyped "1" then (b.switchTab .dashboard, false)
  else if k.isTyped "2" then (b.switchTab .conflicts, false)
  else if k.isTyped "3" then (b.switchTab .details, false)
  else if k = .tab then (b.switchTab b.tab.next, false)
  else if k = .shiftTab then (b.switchTab b.tab.previous, false)
  else match b.tab with
    | .dashboard => (b, false)
    | .conflicts => b.conflictsKey k
    | .details => (b.detailsKey k, false)

/-- What an event does; the flag asks to leave the browser. -/
def handle (b : Browser L) : BrowserEvent → Browser L × Bool
  | .resize width height =>
    let list := ListWidget.resize b.list width (rowsWithin height)
    ({ b with width, height, list }, false)
  | .key k => b.press k
  | .other => if b.tab = .conflicts then b.inList ListWidget.notice else (b, false)

end Browser

end JvmLinkage
