import JvmLinkage.Cache.Store
import JvmLinkage.Proofs.Cache.MessagePack
import JvmLinkage.Proofs.Declared.Snapshot

/-!
# Reading cache entries back

Every record is read back from its packed value: a member that was left out is one that is empty in
the blank record as well. With packed values that are read back from their octets, and classes that are
restored from their snapshots, an entry gives the classes that were put into it.
-/

namespace JvmLinkage.CacheEntry

/-! ## Members -/

section Members

variable {α β : Type} {members : List (Text × (α → Packed → Option α))} {blank old new : α}

/-- Reads one entry of a map onto a record. -/
def entryOnto? (members : List (Text × (α → Packed → Option α))) (record : α)
    (entry : Packed × Packed) : Option α := do
  match members.lookup (← asText? entry.1) with
  | some onto => onto record entry.2
  | none => return record

/-- Reading the entries onto the old record gives the new one. -/
def Updates (members : List (Text × (α → Packed → Option α))) (entries : List (Packed × Packed))
    (old new : α) : Prop :=
  entries.foldlM (entryOnto? members) old = some new

theorem recordOnto?_map {entries : List (Packed × Packed)} (h : Updates members entries old new) :
    recordOnto? blank members old (.map entries) = some new := h

theorem Updates.append {first second : List (Packed × Packed)} {mid : α}
    (hfirst : Updates members first old mid) (hsecond : Updates members second mid new) :
    Updates members (first ++ second) old new := by
  unfold Updates at *
  rw [List.foldlM_append, hfirst]
  exact hsecond

variable {onto : α → Packed → Option α} {name : String}

theorem updates_always {value : Packed} (hname : members.lookup (Text.ofString name) = some onto)
    (h : onto old value = some new) : Updates members (always name value) old new := by
  simp [Updates, always, entryOnto?, asText?, hname, h]

theorem updates_unlessEmpty {pack : β → Packed} {items : List β}
    (hname : members.lookup (Text.ofString name) = some onto) (hempty : items = [] → old = new)
    (h : onto old (.array (items.map pack)) = some new) :
    Updates members (unlessEmpty name pack items) old new := by
  unfold unlessEmpty
  split
  case isTrue hnil =>
    rw [hempty (List.isEmpty_iff.mp hnil)]
    rfl
  case isFalse => exact updates_always hname h

theorem updates_ifTrue {b : Bool} (hname : members.lookup (Text.ofString name) = some onto)
    (hfalse : b = false → old = new) (h : b = true → onto old (.bool true) = some new) :
    Updates members (ifTrue name b) old new := by
  cases b with
  | false =>
    rw [hfalse rfl]
    rfl
  | true => exact updates_always hname (h rfl)

theorem updates_unlessZero {n : Int} (hname : members.lookup (Text.ofString name) = some onto)
    (hzero : n = 0 → old = new) (h : onto old (.int n) = some new) :
    Updates members (unlessZero name n) old new := by
  unfold unlessZero
  split
  case isTrue hn =>
    rw [hzero hn]
    rfl
  case isFalse => exact updates_always hname h

end Members

/-! ## Lists -/

theorem asTexts?_map_text (old items : List Text) :
    asTexts? old (.array (items.map .text)) = some items := by
  have hitems : (items.map Packed.text).mapM asText? = some items := by
    induction items with
    | nil => rfl
    | cons t items ih => simp [asText?, ih]
  exact hitems

theorem listOnto?_map {α : Type} {blank : α} {onto : α → Packed → Option α} {pack : α → Packed}
    (h : ∀ a, onto blank (pack a) = some a) (items : List α) :
    listOnto? blank onto [] (.array (items.map pack)) = some items := by
  have hitems : itemsOnto? blank onto [] (items.map pack) = some items := by
    induction items with
    | nil => rfl
    | cons a items ih => simp [itemsOnto?, h a, ih]
  exact hitems

/-! ## Records

Each member takes the record from one stage to the next, from the blank record to the whole one.
-/

theorem fieldOnto?_pack (f : FieldSnapshot) :
    recordOnto? default fieldMembers default (packField f) = some f := by
  have hname : Updates fieldMembers (always "name" (.text f.name)) default ⟨f.name, []⟩ :=
    updates_always rfl rfl
  have htype : Updates fieldMembers (always "type" (.text f.type)) ⟨f.name, []⟩ f :=
    updates_always rfl rfl
  exact recordOnto?_map (hname.append htype)

theorem callOnto?_pack (c : CallSnapshot) :
    recordOnto? default callMembers default (packCall c) = some c := by
  have howner : Updates callMembers (always "owner" (.text c.owner)) default
      ⟨c.owner, [], [], false, 0, []⟩ := updates_always rfl rfl
  have hname : Updates callMembers (always "name" (.text c.name)) ⟨c.owner, [], [], false, 0, []⟩
      ⟨c.owner, c.name, [], false, 0, []⟩ := updates_always rfl rfl
  have hdescriptor : Updates callMembers (always "desc" (.text c.descriptor))
      ⟨c.owner, c.name, [], false, 0, []⟩ ⟨c.owner, c.name, c.descriptor, false, 0, []⟩ :=
    updates_always rfl rfl
  have hstatic : Updates callMembers (ifTrue "static" c.static)
      ⟨c.owner, c.name, c.descriptor, false, 0, []⟩
      ⟨c.owner, c.name, c.descriptor, c.static, 0, []⟩ :=
    updates_ifTrue rfl (fun h => by rw [h]) (fun h => by rw [h]; rfl)
  have hline : Updates callMembers (unlessZero "line" c.line)
      ⟨c.owner, c.name, c.descriptor, c.static, 0, []⟩
      ⟨c.owner, c.name, c.descriptor, c.static, c.line, []⟩ :=
    updates_unlessZero rfl (fun h => by rw [h]) rfl
  have hcaught : Updates callMembers (unlessEmpty "caught" .text c.caught)
      ⟨c.owner, c.name, c.descriptor, c.static, c.line, []⟩ c := by
    refine updates_unlessEmpty rfl (fun h => by rw [← h]) ?_
    simp [asTexts?_map_text]
  exact recordOnto?_map
    (((((howner.append hname).append hdescriptor).append hstatic).append hline).append hcaught)

theorem accessOnto?_pack (a : AccessSnapshot) :
    recordOnto? default accessMembers default (packAccess a) = some a := by
  have howner : Updates accessMembers (always "owner" (.text a.owner)) default
      ⟨a.owner, [], [], false, 0, []⟩ := updates_always rfl rfl
  have hname : Updates accessMembers (always "name" (.text a.name)) ⟨a.owner, [], [], false, 0, []⟩
      ⟨a.owner, a.name, [], false, 0, []⟩ := updates_always rfl rfl
  have htype : Updates accessMembers (always "type" (.text a.type))
      ⟨a.owner, a.name, [], false, 0, []⟩ ⟨a.owner, a.name, a.type, false, 0, []⟩ :=
    updates_always rfl rfl
  have hstatic : Updates accessMembers (ifTrue "static" a.static)
      ⟨a.owner, a.name, a.type, false, 0, []⟩ ⟨a.owner, a.name, a.type, a.static, 0, []⟩ :=
    updates_ifTrue rfl (fun h => by rw [h]) (fun h => by rw [h]; rfl)
  have hline : Updates accessMembers (unlessZero "line" a.line)
      ⟨a.owner, a.name, a.type, a.static, 0, []⟩ ⟨a.owner, a.name, a.type, a.static, a.line, []⟩ :=
    updates_unlessZero rfl (fun h => by rw [h]) rfl
  have hcaught : Updates accessMembers (unlessEmpty "caught" .text a.caught)
      ⟨a.owner, a.name, a.type, a.static, a.line, []⟩ a := by
    refine updates_unlessEmpty rfl (fun h => by rw [← h]) ?_
    simp [asTexts?_map_text]
  exact recordOnto?_map
    (((((howner.append hname).append htype).append hstatic).append hline).append hcaught)

theorem methodOnto?_pack (m : MethodSnapshot) :
    recordOnto? default methodMembers default (packMethod m) = some m := by
  have hname : Updates methodMembers (always "name" (.text m.name)) default
      ⟨m.name, [], false, 0, [], []⟩ := updates_always rfl rfl
  have hdescriptor : Updates methodMembers (always "desc" (.text m.descriptor))
      ⟨m.name, [], false, 0, [], []⟩ ⟨m.name, m.descriptor, false, 0, [], []⟩ :=
    updates_always rfl rfl
  have hstatic : Updates methodMembers (ifTrue "static" m.static)
      ⟨m.name, m.descriptor, false, 0, [], []⟩ ⟨m.name, m.descriptor, m.static, 0, [], []⟩ :=
    updates_ifTrue rfl (fun h => by rw [h]) (fun h => by rw [h]; rfl)
  have hline : Updates methodMembers (unlessZero "line" m.line)
      ⟨m.name, m.descriptor, m.static, 0, [], []⟩ ⟨m.name, m.descriptor, m.static, m.line, [], []⟩ :=
    updates_unlessZero rfl (fun h => by rw [h]) rfl
  have hcalls : Updates methodMembers (unlessEmpty "calls" packCall m.calls)
      ⟨m.name, m.descriptor, m.static, m.line, [], []⟩
      ⟨m.name, m.descriptor, m.static, m.line, m.calls, []⟩ := by
    refine updates_unlessEmpty rfl (fun h => by rw [h]) ?_
    simp [listOnto?_map callOnto?_pack]
  have haccesses : Updates methodMembers (unlessEmpty "fields" packAccess m.accesses)
      ⟨m.name, m.descriptor, m.static, m.line, m.calls, []⟩ m := by
    refine updates_unlessEmpty rfl (fun h => by rw [← h]) ?_
    simp [listOnto?_map accessOnto?_pack]
  exact recordOnto?_map
    (((((hname.append hdescriptor).append hstatic).append hline).append hcalls).append haccesses)

theorem classOnto?_pack (c : ClassSnapshot) :
    recordOnto? default classMembers default (packClass c) = some c := by
  have hname : Updates classMembers (always "name" (.text c.name)) default
      ⟨c.name, [], [], [], []⟩ := updates_always rfl rfl
  have hparents : Updates classMembers (unlessEmpty "parents" .text c.parents)
      ⟨c.name, [], [], [], []⟩ ⟨c.name, c.parents, [], [], []⟩ := by
    refine updates_unlessEmpty rfl (fun h => by rw [h]) ?_
    simp [asTexts?_map_text]
  have hloads : Updates classMembers (unlessEmpty "loads" .text c.loads)
      ⟨c.name, c.parents, [], [], []⟩ ⟨c.name, c.parents, c.loads, [], []⟩ := by
    refine updates_unlessEmpty rfl (fun h => by rw [h]) ?_
    simp [asTexts?_map_text]
  have hfields : Updates classMembers (unlessEmpty "fields" packField c.fields)
      ⟨c.name, c.parents, c.loads, [], []⟩ ⟨c.name, c.parents, c.loads, c.fields, []⟩ := by
    refine updates_unlessEmpty rfl (fun h => by rw [h]) ?_
    simp [listOnto?_map fieldOnto?_pack]
  have hmethods : Updates classMembers (unlessEmpty "methods" packMethod c.methods)
      ⟨c.name, c.parents, c.loads, c.fields, []⟩ c := by
    refine updates_unlessEmpty rfl (fun h => by rw [← h]) ?_
    simp [listOnto?_map methodOnto?_pack]
  exact recordOnto?_map
    ((((hname.append hparents).append hloads).append hfields).append hmethods)

theorem ofPacked?_toPacked (e : CacheEntry) : ofPacked? e.toPacked = some e := by
  have hlayout : Updates entryMembers (always "schema" (.int e.layout)) blank ⟨e.layout, []⟩ :=
    updates_always rfl rfl
  have hclasses : Updates entryMembers (always "classes" (.array (e.classes.map packClass)))
      ⟨e.layout, []⟩ e := by
    refine updates_always rfl ?_
    simp [listOnto?_map classOnto?_pack]
  exact recordOnto?_map (hlayout.append hclasses)

/-! ## Entries -/

/-- The entry is read back from its octets. -/
def Survives (e : CacheEntry) : Prop := decode? e.encode = some e

theorem survives_of_fits {e : CacheEntry} (h : e.toPacked.Fits) : e.Survives := by
  have hread : Packed.read? e.encode = some (e.toPacked, []) := by
    simpa [encode] using Packed.read?_encode h []
  simp [Survives, decode?, hread, ofPacked?_toPacked]

theorem toClass_ofClass {c : DeclaredClass} (h : c.Accepted) :
    (ClassSnapshot.ofClass c).toClass = .ok c :=
  h.restore (m := Id)

theorem toClasses_ofClasses {classes : List DeclaredClass} (h : ∀ c ∈ classes, c.Accepted) :
    (ofClasses classes).toClasses = .ok classes := by
  have hrestore : (classes.map ClassSnapshot.ofClass).mapM
      (fun c => c.toClass.mapError (CacheFailure.restoring c.name)) = .ok classes := by
    induction classes with
    | nil => rfl
    | cons c classes ih =>
      have hfirst := toClass_ofClass (h c (by simp))
      have hrest := ih fun d hd => h d (by simp [hd])
      rw [List.map_cons, List.mapM_cons, hfirst, hrest]
      rfl
  exact hrestore

/-- The octets of an entry hold the classes that were put into it. -/
theorem classesOf_encode {classes : List DeclaredClass} (haccepted : ∀ c ∈ classes, c.Accepted)
    (hsurvives : (ofClasses classes).Survives) :
    classesOf (ofClasses classes).encode = .ok classes := by
  unfold classesOf
  rw [hsurvives]
  exact toClasses_ofClasses haccepted

end JvmLinkage.CacheEntry
