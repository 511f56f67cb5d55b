import JvmLinkage.Assembler
import JvmLinkage.Proofs.Descriptor.Methods
import JvmLinkage.Proofs.Text.Decimal

/-!
# Labels of constants

A label begins with a word for the kind of the constant and goes on with its names, which marks keep
apart. As long as no name holds the mark that ends it, the label tells which constant it stands for.
-/

namespace JvmLinkage

/-- The kind of constant that a reference is. -/
def MemberKind.tag : MemberKind → Tag
  | field => .fieldRef
  | method => .methodRef
  | interfaceMethod => .interfaceMethodRef

/-- References are announced by the octets that readers take them for. -/
theorem MemberKind.octet_eq_code (kind : MemberKind) : kind.octet = kind.tag.code := by
  cases kind <;> rfl

theorem MemberKind.tag_injective {kind kind' : MemberKind} (h : kind.tag = kind'.tag) :
    kind = kind' := by
  cases kind <;> cases kind' <;> first | rfl | cases h

namespace PoolItem

/-- No name holds the mark that ends it in a label. -/
def Valid : PoolItem → Prop
  | nameAndType name _ => Ascii.colon ∉ name
  | memberRef _ owner name _ => Ascii.dot ∉ owner ∧ Ascii.colon ∉ name
  | _ => True

instance : DecidablePred Valid
  | utf8 _ | classRef _ | string _ | integer _ | long _ => isTrue trivial
  | nameAndType name _ => inferInstanceAs (Decidable (Ascii.colon ∉ name))
  | memberRef _ owner name _ => inferInstanceAs (Decidable (Ascii.dot ∉ owner ∧ Ascii.colon ∉ name))

/-- The texts of a constant. -/
def texts : PoolItem → List Text
  | utf8 s | string s => [s]
  | classRef name => [name]
  | integer _ | long _ => []
  | nameAndType name descriptor => [name, descriptor]
  | memberRef _ owner name descriptor => [owner, name, descriptor]

/-- The kind of the constant. -/
def tag : PoolItem → Tag
  | utf8 _ => .utf8
  | classRef _ => .classRef
  | string _ => .string
  | integer _ => .integer
  | long _ => .long
  | nameAndType .. => .nameAndType
  | memberRef kind .. => kind.tag

/-- The word for a kind of constant. -/
def word : Tag → Text
  | .utf8 => "utf8"
  | .classRef => "class"
  | .string => "string"
  | .integer => "int"
  | .long => "long"
  | .nameAndType => "nat"
  | tag => "ref" ++ Text.ofNat tag.code.toNat

/-- What follows the word for the kind. -/
def content : PoolItem → Text
  | utf8 s => s
  | classRef name => name
  | string s => s
  | integer n => Text.ofInt n.toInt
  | long n => Text.ofInt n.toInt
  | nameAndType name descriptor => name ++ Ascii.colon :: descriptor
  | memberRef _ owner name descriptor => owner ++ Ascii.dot :: (name ++ Ascii.colon :: descriptor)

/-- The kinds that there are words for. -/
def entryTags : List Tag :=
  [.utf8, .classRef, .string, .integer, .long, .nameAndType, .fieldRef, .methodRef,
    .interfaceMethodRef]

variable {a b : PoolItem}

theorem tag_mem (a : PoolItem) : a.tag ∈ entryTags := by
  cases a with
  | memberRef kind owner name descriptor => cases kind <;> simp [tag, MemberKind.tag, entryTags]
  | _ => simp [tag, entryTags]

theorem colon_not_mem_word : ∀ t ∈ entryTags, Ascii.colon ∉ word t := by decide

theorem word_injective : ∀ t ∈ entryTags, ∀ u ∈ entryTags, word t = word u → t = u := by decide

theorem label_eq (a : PoolItem) : a.label = word a.tag ++ Ascii.colon :: a.content := by
  have hcolon : Text.ofString ":" = [Ascii.colon] := by decide
  have hdot : Text.ofString "." = [Ascii.dot] := by decide
  cases a with
  | nameAndType name descriptor =>
    have hword : Text.ofString "nat:" = word .nameAndType ++ [Ascii.colon] := by decide
    simp [label, tag, content, hword, hcolon]
  | memberRef kind owner name descriptor =>
    have hword : "ref" ++ Text.ofNat kind.octet.toNat = word kind.tag := by
      rw [kind.octet_eq_code]
      cases kind <;> rfl
    simp [label, tag, content, hword, hcolon, hdot]
  | _ => rfl

/-- Names that do not hold the mark after them are told apart by what stands before it. -/
theorem eq_of_content_eq (ha : a.Valid) (hb : b.Valid) (htag : a.tag = b.tag)
    (h : a.content = b.content) : a = b := by
  cases a <;> cases b
  case utf8.utf8 => exact congrArg utf8 h
  case classRef.classRef => exact congrArg classRef h
  case string.string => exact congrArg string h
  case integer.integer => exact congrArg integer (Int32.toInt_inj.mp (Text.ofInt_injective h))
  case long.long => exact congrArg long (Int64.toInt_inj.mp (Text.ofInt_injective h))
  case nameAndType.nameAndType =>
    obtain ⟨rfl, rfl⟩ := Text.eq_of_append_cons_eq ha hb h
    rfl
  case memberRef.memberRef =>
    obtain ⟨rfl, hrest⟩ := Text.eq_of_append_cons_eq ha.1 hb.1 h
    obtain ⟨rfl, rfl⟩ := Text.eq_of_append_cons_eq ha.2 hb.2 hrest
    exact congrArg (memberRef · _ _ _) (MemberKind.tag_injective htag)
  -- Constants of different kinds are left, and no kind of member reference is among the others.
  all_goals grind [tag, MemberKind.tag, cases MemberKind]

/-- Constants with the same label are the same. -/
theorem eq_of_label_eq (ha : a.Valid) (hb : b.Valid) (h : a.label = b.label) : a = b := by
  rw [label_eq, label_eq] at h
  have hword := colon_not_mem_word _ a.tag_mem
  have hword' := colon_not_mem_word _ b.tag_mem
  obtain ⟨htag, hcontent⟩ := Text.eq_of_append_cons_eq hword hword' h
  exact eq_of_content_eq ha hb (word_injective _ a.tag_mem _ b.tag_mem htag) hcontent

end PoolItem

end JvmLinkage
