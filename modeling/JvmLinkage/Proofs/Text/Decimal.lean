import JvmLinkage.Text.Decimal
import Mathlib.Data.List.Basic

/-!
# Numbers in text

Different numbers have different digits.
-/

namespace JvmLinkage.Text

theorem toNat_of_mem_toDigits {n : Nat} {c : Char} (h : c ∈ Nat.toDigits 10 n) :
    0x30 ≤ c.toNat ∧ c.toNat ≤ 0x39 := by
  have hdigit := Nat.isDigit_of_mem_toDigits (by decide : 0 < 10) (by decide) h
  simpa [Char.isDigit, UInt32.le_iff_toNat_le] using hdigit

theorem toNat_of_mem_ofNat {n : Nat} {b : UInt8} (h : b ∈ ofNat n) : 0x30 ≤ b.toNat := by
  obtain ⟨c, hc, rfl⟩ := List.mem_map.mp h
  obtain ⟨hlow, hhigh⟩ := toNat_of_mem_toDigits hc
  rw [UInt8.toNat_ofNat_of_lt' (show c.toNat < 256 by omega)]
  exact hlow

theorem ofNat_injective {n k : Nat} (h : ofNat n = ofNat k) : n = k := by
  have hback (n : Nat) : (ofNat n).map (fun b => Char.ofNat b.toNat) = Nat.toDigits 10 n := by
    rw [ofNat, List.map_map]
    refine (List.map_congr_left fun c hc => ?_).trans (List.map_id _)
    obtain ⟨-, hhigh⟩ := toNat_of_mem_toDigits hc
    have hsame : c.toNat.toUInt8.toNat = c.toNat :=
      UInt8.toNat_ofNat_of_lt' (show c.toNat < 256 by omega)
    rw [Function.comp_apply, hsame, Char.ofNat_toNat, id_eq]
  calc
    n = Nat.ofDigitChars 10 (Nat.toDigits 10 n) 0 := Nat.ofDigitChars_ten_toDigits.symm
    _ = Nat.ofDigitChars 10 (Nat.toDigits 10 k) 0 := by rw [← hback n, h, hback k]
    _ = k := Nat.ofDigitChars_ten_toDigits

theorem not_mem_ofNat {b : UInt8} (h : b.toNat < 0x30) (n : Nat) : b ∉ ofNat n := by
  intro hmem
  have hlow := toNat_of_mem_ofNat hmem
  omega

theorem newline_not_mem_ofInt (n : Int) : Ascii.newline ∉ ofInt n := by
  cases n with
  | ofNat k => exact not_mem_ofNat (by decide) k
  | negSucc k =>
    intro hmem
    rcases List.mem_cons.mp hmem with heq | hmem
    · exact absurd heq (by decide)
    · exact not_mem_ofNat (by decide) (k + 1) hmem

theorem ofInt_injective {n k : Int} (h : ofInt n = ofInt k) : n = k := by
  have hsign (n k : Nat) : ofNat n ≠ Ascii.hyphen :: ofNat k := by
    intro heq
    have hmem : Ascii.hyphen ∈ ofNat n := by simp [heq]
    exact not_mem_ofNat (by decide) n hmem
  cases n with
  | ofNat n =>
    cases k with
    | ofNat k => exact congrArg Int.ofNat (ofNat_injective h)
    | negSucc k => exact absurd h (hsign n (k + 1))
  | negSucc n =>
    cases k with
    | ofNat k => exact absurd h.symm (hsign k (n + 1))
    | negSucc k =>
      have htail := ofNat_injective (List.cons.inj h).2
      exact congrArg Int.negSucc (Nat.succ.inj htail)

end JvmLinkage.Text
