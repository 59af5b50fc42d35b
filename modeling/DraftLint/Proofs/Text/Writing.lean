import DraftLint.Proofs.Text.Case
import DraftLint.Proofs.Text.Numeral
import Mathlib.Data.List.Basic
import Mathlib.Data.Nat.Digits.Defs

/-!
# Writing numerals

The numeral that is written for a natural number is read as that number again, and no two numbers are written in
the same way.
-/

namespace DraftLint.Text

theorem digit_ofNat (n : Nat) : ∀ c ∈ ofNat n, CharSet.digit c := by
  intro c hc
  have hdigit := Nat.isDigit_of_mem_toDigits (b := 10) (by decide) (by decide) hc
  simp only [Char.isDigit, Bool.and_eq_true, decide_eq_true_eq, ge_iff_le, UInt32.le_iff_toNat_le] at hdigit
  exact digit_iff.mpr hdigit

theorem isDecimal_ofNat (n : Nat) : ∀ c ∈ ofNat n, isDecimal c :=
  fun c hc => isDecimal_of_digit (digit_ofNat n c hc)

theorem ofNat_ne_nil (n : Nat) : ofNat n ≠ [] :=
  Nat.toDigits_ne_nil

theorem isNumeral_ofNat {n : Nat} (h : n < 10 ^ maxNumeralDigits) : (ofNat n).IsNumeral :=
  ⟨ofNat_ne_nil n, isDecimal_ofNat n, Nat.toDigits_length 10 n maxNumeralDigits (by decide) h⟩

theorem digitValue?_of_lt {c : Char} (hdecimal : isDecimal c) (h : c.toNat < 0x80) :
    digitValue? c = some (c.toNat - '0'.toNat) := by
  rw [isDecimal_of_lt h] at hdecimal
  rw [digitValue?, if_pos h, if_pos hdecimal]
  rfl

theorem ofDigits_ofNat (n : Nat) : ofDigits ((ofNat n).filterMap digitValue?) = n := by
  have hvalues : (ofNat n).filterMap digitValue? = (ofNat n).map fun c => c.toNat - '0'.toNat := by
    rw [List.filterMap_eq_map_iff_forall_eq_some]
    intro c hc
    have hbounds := digit_iff.mp (digit_ofNat n c hc)
    exact digitValue?_of_lt (isDecimal_ofNat n c hc) (by omega)
  rw [hvalues, ofDigits, List.foldl_map]
  exact Nat.ofDigitChars_toDigits (by decide) (by decide)

/-- What is written for a number is read as that number. -/
theorem integer?_ofNat {n : Nat} (h : (ofNat n).IsNumeral) : integer? (ofNat n) = some (n : Int) := by
  rw [integer?_of_isDecimal h.isDecimal, natural?_of_isDecimal h.ne_nil h.isDecimal, if_pos h.length_le,
    ofDigits_ofNat]
  rfl

/-- A number that needs no more digits than there are places is written in as many. -/
theorem length_padded {width n : Nat} (h : n < 10 ^ width) (hwidth : 0 < width) : (padded width n).length = width := by
  have hle : (ofNat n).length ≤ width := Nat.toDigits_length 10 n width hwidth h
  rw [padded, List.length_append, List.length_replicate]
  omega

theorem ofNat_injective : Function.Injective ofNat := by
  intro m n h
  have hread := congrArg (Nat.ofDigitChars 10 · 0) h
  simpa only [ofNat, Nat.ofDigitChars_toDigits (b := 10) (by decide) (by decide)] using hread

theorem ofNat_ne_negative (m : Nat) (t : Text) : ofNat m ≠ '-' :: t := by
  intro h
  have hmem : '-' ∈ ofNat m := by
    rw [h]
    exact List.mem_cons_self ..
  exact absurd (Nat.isDigit_of_mem_toDigits (by decide) (by decide) hmem) (by decide)

theorem ofInt_injective : Function.Injective ofInt := by
  intro m n h
  cases m with
  | ofNat m =>
    cases n with
    | ofNat n => exact congrArg Int.ofNat (ofNat_injective h)
    | negSucc n => exact absurd h (ofNat_ne_negative m _)
  | negSucc m =>
    cases n with
    | ofNat n => exact absurd h.symm (ofNat_ne_negative n _)
    | negSucc n =>
      have hdigits : m + 1 = n + 1 := ofNat_injective (List.cons.inj h).2
      exact congrArg Int.negSucc (Nat.succ.inj hdigits)

end DraftLint.Text
