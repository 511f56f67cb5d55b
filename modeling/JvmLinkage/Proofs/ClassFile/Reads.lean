import JvmLinkage.Assembler
import JvmLinkage.Proofs.Octets
import Mathlib.Data.List.Forall2

/-!
# Readers and the octets they take

A reader reads a value from given octets if it takes exactly these from the front of its input,
whatever follows them. Such facts compose along the steps of a reader, so that what was written part
by part is read back part by part.
-/

namespace JvmLinkage

namespace Reader

variable {ε δ α β γ : Type}

/-- The reader takes the octets, and nothing of what follows them, and gives the value. -/
def Reads (read : Reader ε α) (octets : Bytes) (value : α) : Prop :=
  ∀ rest offset, read ⟨octets ++ rest, offset⟩ = .ok (value, ⟨rest, offset + octets.length⟩)

namespace Reads

variable {read : Reader ε α} {next : α → Reader ε β} {octets more : Bytes} {value : α} {result : β}

/-! ## Steps -/

protected theorem pure : Reads (pure value : Reader ε α) [] value := by
  intro rest offset
  rfl

protected theorem bind (h : Reads read octets value) (hnext : Reads (next value) more result) :
    Reads (read >>= next) (octets ++ more) result := by
  intro rest offset
  change (read ⟨octets ++ more ++ rest, offset⟩ >>= fun p => next p.1 p.2) = _
  rw [List.append_assoc, h]
  change next value ⟨more ++ rest, offset + octets.length⟩ = _
  rw [hnext, List.length_append, Nat.add_assoc]

/-- The step after this one takes nothing. -/
theorem last (h : Reads read octets value) (hnext : Reads (next value) [] result) :
    Reads (read >>= next) octets result := by
  simpa using h.bind hnext

/-- This step takes nothing. -/
theorem still (h : Reads read [] value) (hnext : Reads (next value) more result) :
    Reads (read >>= next) more result := by
  simpa using h.bind hnext

protected theorem map (f : α → β) (h : Reads read octets value) :
    Reads (f <$> read) octets (f value) := by
  intro rest offset
  change (read ⟨octets ++ rest, offset⟩ >>= fun p => Except.ok (f p.1, p.2)) = _
  rw [h]
  rfl

protected theorem mapError (f : ε → δ) (h : Reads read octets value) :
    Reads (mapError f read) octets value := by
  intro rest offset
  rw [mapError, h]

protected theorem within (place : Place) {read : Reader Fault α} (h : Reads read octets value) :
    Reads (within place read) octets value :=
  h.mapError _

protected theorem given {r : Except ε α} (h : r = .ok value) : Reads (given r) [] value := by
  subst h
  intro rest offset
  rfl

/-- What is read from the octets on their own. -/
theorem run (h : Reads read octets value) (f : α → β) :
    (read.run (.start octets)).map (fun r => f r.1) = .ok (f value) := by
  have hrun := h [] 0
  rw [List.append_nil] at hrun
  rw [StateT.run, Cursor.start, hrun]
  rfl

/-! ## Octets and numbers -/

protected theorem bytes (octets : Bytes) : Reads (bytes octets.length) octets octets := by
  intro rest offset
  simp [bytes]

theorem number {width : Nat} {n : Nat} {f : Nat → α} (h : f (n % 256 ^ width) = value) :
    Reads ((fun bs => f (Bytes.toNat bs)) <$> bytes width) (Bytes.ofNat width n) value := by
  have hbytes := Reads.bytes (Bytes.ofNat width n)
  rw [Bytes.length_ofNat] at hbytes
  have hmap := hbytes.map fun bs => f (Bytes.toNat bs)
  rwa [Bytes.toNat_ofNat, h] at hmap

theorem u1 (n : UInt8) : Reads u1 [n] n := by
  have h : Reads Reader.u1 (Bytes.ofNat 1 n.toNat) n := number (by simp)
  simpa [Bytes.ofNat] using h

theorem u2 (n : UInt16) : Reads u2 (u2Bytes n) n := number (by simp)

theorem u4 (n : UInt32) : Reads u4 (u4Bytes n) n := number (by simp)

theorem u8 (n : UInt64) : Reads u8 (u8Bytes n) n := number (by simp)

theorem skip {n : Int} (h : n = octets.length) : Reads (skip n) octets () := by
  subst h
  have hbytes : Reads (bytesOf (octets.length : Int)) octets octets := by
    rw [bytesOf, if_neg (by omega), Int.toNat_natCast]
    exact .bytes octets
  exact (hbytes.within _).last .pure

/-! ## Items in order -/

theorem itemsFrom {read : Nat → Reader ε α} {parts : List Bytes} {values : List α}
    (h : List.Forall₂ (fun part value => ∀ index, Reads (read index) part value) parts values)
    (first : Nat) : Reads (itemsFrom read first parts.length) parts.flatten values := by
  induction h generalizing first with
  | nil => exact .pure
  | cons hitem _ ih => exact (hitem first).bind ((ih (first + 1)).last .pure)

/-- The items are as many as sixteen bits say, if their number fits in these. -/
theorem items_of_forall₂ {read : Nat → Reader ε α} {parts : List Bytes} {values : List α}
    (hfits : parts.length < 65536)
    (h : List.Forall₂ (fun part value => ∀ index, Reads (read index) part value) parts values) :
    Reads (Reader.items parts.length.toUInt16.toNat read) parts.flatten values := by
  have hlength : parts.length.toUInt16.toNat = parts.length := UInt16.toNat_ofNat_of_lt' hfits
  rw [hlength]
  exact itemsFrom h 0

theorem items {read : Nat → Reader ε α} {octetsOf : γ → Bytes} {valueOf : γ → α} {items : List γ}
    (hfits : items.length < 65536)
    (h : ∀ item ∈ items, ∀ index, Reads (read index) (octetsOf item) (valueOf item)) :
    Reads (Reader.items items.length.toUInt16.toNat read) (items.flatMap octetsOf)
      (items.map valueOf) := by
  have hparts : List.Forall₂ (fun part value => ∀ index, Reads (read index) part value)
      (items.map octetsOf) (items.map valueOf) := by
    rw [List.forall₂_map_left_iff, List.forall₂_map_right_iff, List.forall₂_same]
    exact h
  have hitems := items_of_forall₂ (by rwa [List.length_map]) hparts
  rwa [List.length_map, ← List.flatMap_def] at hitems

end Reads

end Reader

end JvmLinkage
