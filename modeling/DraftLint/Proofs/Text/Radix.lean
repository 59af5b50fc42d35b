import DraftLint.Proofs.Text.Case
import DraftLint.Text.Numeral
import Mathlib.Data.List.Basic
import Mathlib.Data.Nat.Digits.Defs

/-!
# Digits of a number

The digits that write a number in some base, with or without zeros in front.  Decimal and hexadecimal texts are read as
the numbers that they write in this sense.
-/

namespace DraftLint.Text

variable {b d k n : Nat} {ds : List Nat} {c : Char} {t : Text}

/-- The number that digits write after those of another one. -/
def valueAfter (b n : Nat) (ds : List Nat) : Nat :=
  ds.foldl (fun n d => b * n + d) n

section Digits

theorem toDigits_valueAfter (hb : 1 < b) (hn : 0 < n) (hds : ∀ d ∈ ds, d < b) :
    Nat.toDigits b (valueAfter b n ds) = Nat.toDigits b n ++ ds.map Nat.digitChar := by
  induction ds generalizing n with
  | nil => rw [List.map_nil, List.append_nil, valueAfter, List.foldl_nil]
  | cons d ds ih =>
    obtain ⟨hd, hds⟩ := List.forall_mem_cons.mp hds
    have hpos : 0 < b * n + d := Nat.add_pos_left (Nat.mul_pos (by omega) hn) d
    rw [valueAfter, List.foldl_cons, ← valueAfter, ih hpos hds, ← Nat.toDigits_append_toDigits hb hn hd,
      Nat.toDigits_of_lt_base hd, List.append_assoc, List.singleton_append, List.map_cons]

/-- Digits write a number with zeros in front of its own digits. -/
theorem exists_zeros (hb : 1 < b) (hne : ds ≠ []) (hds : ∀ d ∈ ds, d < b) :
    ∃ k, ds.map Nat.digitChar = List.replicate k '0' ++ Nat.toDigits b (valueAfter b 0 ds) := by
  induction ds with
  | nil => exact absurd rfl hne
  | cons d ds ih =>
    obtain ⟨hd, hmore⟩ := List.forall_mem_cons.mp hds
    have hvalue : valueAfter b 0 (d :: ds) = valueAfter b d ds := by
      rw [valueAfter, List.foldl_cons, Nat.mul_zero, Nat.zero_add, ← valueAfter]
    rw [hvalue]
    rcases Nat.eq_zero_or_pos d with rfl | hpos
    · by_cases hnil : ds = []
      · exact ⟨0, by rw [hnil, valueAfter, List.foldl_nil, Nat.toDigits_zero]; rfl⟩
      · obtain ⟨k, hk⟩ := ih hnil hmore
        exact ⟨k + 1, by rw [List.map_cons, hk, List.replicate_succ]; rfl⟩
    · refine ⟨0, ?_⟩
      rw [toDigits_valueAfter hb hpos hmore, Nat.toDigits_of_lt_base hd]
      rfl

/-- The digits of a number write it. -/
theorem exists_digits (hb : 1 < b) (n : Nat) :
    ∃ ds, (∀ d ∈ ds, d < b) ∧ Nat.toDigits b n = ds.map Nat.digitChar ∧ valueAfter b 0 ds = n := by
  by_cases hn : n < b
  · refine ⟨[n], by simpa using hn, Nat.toDigits_of_lt_base hn, ?_⟩
    rw [valueAfter, List.foldl_cons, List.foldl_nil, Nat.mul_zero, Nat.zero_add]
  · have hle : b ≤ n := Nat.not_lt.mp hn
    have hless : n / b < n := Nat.div_lt_self (by omega) hb
    obtain ⟨ds, hds, hdigits, hvalue⟩ := exists_digits hb (n / b)
    refine ⟨ds ++ [n % b], ?_, ?_, ?_⟩
    · exact List.forall_mem_append.mpr ⟨hds, by simpa using Nat.mod_lt n (by omega)⟩
    · rw [Nat.toDigits_of_base_le hb hle, hdigits, List.map_append, List.map_singleton]
    · rw [valueAfter] at hvalue
      rw [valueAfter, List.foldl_append, hvalue, List.foldl_cons, List.foldl_nil, Nat.div_add_mod]
termination_by n

theorem valueAfter_zeros (b k : Nat) (ds : List Nat) : valueAfter b 0 (List.replicate k 0 ++ ds) = valueAfter b 0 ds := by
  induction k with
  | zero => rfl
  | succ k ih => rw [List.replicate_succ, List.cons_append, valueAfter, List.foldl_cons, Nat.mul_zero, ← valueAfter, ih]

/-- Zeros in front do not count. -/
theorem exists_digits_of_zeros (hb : 1 < b) (k n : Nat) :
    ∃ ds, (∀ d ∈ ds, d < b) ∧ List.replicate k '0' ++ Nat.toDigits b n = ds.map Nat.digitChar ∧ valueAfter b 0 ds = n := by
  obtain ⟨ds, hds, hdigits, hvalue⟩ := exists_digits hb n
  refine ⟨List.replicate k 0 ++ ds, ?_, ?_, by rw [valueAfter_zeros, hvalue]⟩
  · refine List.forall_mem_append.mpr ⟨fun d hd => ?_, hds⟩
    rw [List.eq_of_mem_replicate hd]
    omega
  · rw [List.map_append, List.map_replicate, hdigits]
    rfl

theorem valueAfter_lt (n : Nat) (hds : ∀ d ∈ ds, d < b) : valueAfter b n ds < (n + 1) * b ^ ds.length := by
  induction ds generalizing n with
  | nil =>
    rw [valueAfter, List.foldl_nil, List.length_nil, Nat.pow_zero, Nat.mul_one]
    exact Nat.lt_succ_self n
  | cons d ds ih =>
    obtain ⟨hd, hds⟩ := List.forall_mem_cons.mp hds
    have hstep : b * n + d + 1 ≤ (n + 1) * b := by
      rw [Nat.add_mul, Nat.one_mul, Nat.mul_comm]
      omega
    calc valueAfter b n (d :: ds) < (b * n + d + 1) * b ^ ds.length := ih (b * n + d) hds
      _ ≤ (n + 1) * b * b ^ ds.length := Nat.mul_le_mul_right _ hstep
      _ = (n + 1) * b ^ (d :: ds).length := by rw [List.length_cons, Nat.pow_succ', Nat.mul_assoc]

/-- A number of digits write the numbers below that power of the base. -/
theorem exists_valueAfter_iff (hb : 0 < b) :
    (∃ ds, ds.length = k ∧ (∀ d ∈ ds, d < b) ∧ valueAfter b 0 ds = n) ↔ n < b ^ k := by
  constructor
  · rintro ⟨ds, rfl, hds, rfl⟩
    have hlt := valueAfter_lt 0 hds
    rwa [Nat.zero_add, Nat.one_mul] at hlt
  · intro h
    induction k generalizing n with
    | zero =>
      obtain rfl : n = 0 := Nat.lt_one_iff.mp h
      exact ⟨[], rfl, List.forall_mem_nil _, rfl⟩
    | succ k ih =>
      have hless : n / b < b ^ k := Nat.div_lt_of_lt_mul (by rwa [Nat.pow_succ'] at h)
      obtain ⟨ds, hlength, hds, hvalue⟩ := ih hless
      refine ⟨ds ++ [n % b], by rw [List.length_append, hlength]; rfl, ?_, ?_⟩
      · exact List.forall_mem_append.mpr ⟨hds, by simpa using Nat.mod_lt n hb⟩
      · rw [valueAfter] at hvalue
        rw [valueAfter, List.foldl_append, hvalue, List.foldl_cons, List.foldl_nil, Nat.div_add_mod]

end Digits

section Hexadecimal

theorem digitChar_cases : ∀ d < 16, hexDigit? d.digitChar = some d ∧ d.digitChar.toLower = d.digitChar := by
  decide

theorem lt_of_isHexDigit (h : isHexDigit c) : c.toNat < 0x80 := by
  have hle : ∀ d : Char, d.toNat < 0x80 → c ≤ d → c.toNat < 0x80 := fun d hd hcd =>
    Nat.lt_of_le_of_lt (UInt32.le_iff_toNat_le.mp hcd) hd
  unfold isHexDigit hexDigit? at h
  split_ifs at h with hdigit hlower hupper
  · simp only [Char.isDigit, Bool.and_eq_true, decide_eq_true_eq] at hdigit
    exact hle '9' (by decide) hdigit.2
  · rw [Bool.and_eq_true, decide_eq_true_eq, decide_eq_true_eq] at hlower
    exact hle 'f' (by decide) hlower.2
  · rw [Bool.and_eq_true, decide_eq_true_eq, decide_eq_true_eq] at hupper
    exact hle 'F' (by decide) hupper.2
  · cases h

/-- A character has a hexadecimal value exactly if its small form is the digit for it. -/
theorem hexDigit?_eq_some_iff : hexDigit? c = some d ↔ d < 16 ∧ c.toLower = d.digitChar := by
  have hascii : ∀ c : Char, c.toNat < 0x80 → ∀ d < 16, hexDigit? c = some d ↔ c.toLower = d.digitChar :=
    forall_of_lt (by decide +kernel)
  have hsmall : ∀ c : Char, c.toNat < 0x80 → ∀ d ∈ hexDigit? c, d < 16 := forall_of_lt (by decide +kernel)
  have hdigits : ∀ d < 16, d.digitChar.toNat < 0x80 := by decide
  constructor
  · intro h
    have hc := lt_of_isHexDigit (c := c) (by rw [isHexDigit, h]; rfl)
    have hd := hsmall _ hc d h
    exact ⟨hd, (hascii _ hc d hd).mp h⟩
  · rintro ⟨hd, hlower⟩
    have hc : c.toNat < 0x80 := by
      rcases toLower_eq_or_capital c with hself | hcapital
      · rw [← hself, hlower]
        exact hdigits d hd
      · omega
    exact (hascii _ hc d hd).mpr hlower

/-- Hexadecimal digits of either case are the small ones of their values. -/
theorem forall_isHexDigit_iff (t : Text) (ds : List Nat) :
    ((∀ c ∈ t, isHexDigit c) ∧ t.map hexDigit = ds) ↔ (∀ d ∈ ds, d < 16) ∧ t.map Char.toLower = ds.map Nat.digitChar := by
  induction t generalizing ds with
  | nil => cases ds <;> simp
  | cons c t ih =>
    cases ds with
    | nil => simp
    | cons d ds =>
      have hc : isHexDigit c ∧ hexDigit c = d ↔ d < 16 ∧ c.toLower = d.digitChar := by
        rw [← hexDigit?_eq_some_iff, isHexDigit, hexDigit]
        cases hexDigit? c <;> simp
      have hrest := ih ds
      simp only [List.forall_mem_cons, List.map_cons, List.cons.injEq]
      tauto

/-- A text of hexadecimal digits writes a number if its small form is the number's with zeros in front. -/
theorem ofHexDigits_eq_iff (hne : t ≠ []) : ((∀ c ∈ t, isHexDigit c) ∧ ofHexDigits t = n) ↔
    ∃ k, t.map Char.toLower = List.replicate k '0' ++ Nat.toDigits 16 n := by
  have hvalue : ofHexDigits t = valueAfter 16 0 (t.map hexDigit) := (List.foldl_map ..).symm
  constructor
  · rintro ⟨hhex, rfl⟩
    obtain ⟨hdigits, hlower⟩ := (forall_isHexDigit_iff t _).mp ⟨hhex, rfl⟩
    rw [hvalue, hlower]
    exact exists_zeros (by decide) (by simpa using hne) hdigits
  · rintro ⟨k, hk⟩
    obtain ⟨ds, hds, hdigits, rfl⟩ := exists_digits_of_zeros (b := 16) (by decide) k n
    obtain ⟨hhex, hmap⟩ := (forall_isHexDigit_iff t ds).mpr ⟨hds, hk.trans hdigits⟩
    exact ⟨hhex, by rw [hvalue, hmap]⟩

end Hexadecimal

section Decimal

theorem digit_of_isDigit (h : c.isDigit) : c.toNat - '0'.toNat < 10 ∧ (c.toNat - '0'.toNat).digitChar = c := by
  have hbounds : 0x30 ≤ c.toNat ∧ c.toNat ≤ 0x39 := by
    simp only [Char.isDigit, Bool.and_eq_true, decide_eq_true_eq, ge_iff_le, UInt32.le_iff_toNat_le] at h
    exact h
  have hdigits : ∀ d < 10, Nat.digitChar d = Char.ofNat (0x30 + d) := by decide
  have hlt : c.toNat - 0x30 < 10 := by omega
  refine ⟨hlt, (hdigits _ hlt).trans ?_⟩
  rw [Nat.add_sub_of_le hbounds.1, Char.ofNat_toNat]

/-- A text of digits writes their number with zeros in front. -/
theorem exists_zeros_ofNat (hne : t ≠ []) (h : ∀ c ∈ t, c.isDigit) :
    ∃ k, t = List.replicate k '0' ++ ofNat (ofDigits (t.map fun c => c.toNat - '0'.toNat)) := by
  have hself : (t.map fun c => c.toNat - '0'.toNat).map Nat.digitChar = t := by
    rw [List.map_map]
    exact (List.map_congr_left fun c hc => (digit_of_isDigit (h c hc)).2).trans (List.map_id t)
  have hdigits : ∀ d ∈ t.map fun c => c.toNat - '0'.toNat, d < 10 := by
    intro d hd
    obtain ⟨c, hc, rfl⟩ := List.mem_map.mp hd
    exact (digit_of_isDigit (h c hc)).1
  obtain ⟨k, hk⟩ := exists_zeros (b := 10) (by decide) (by simpa using hne) hdigits
  exact ⟨k, hself.symm.trans hk⟩

end Decimal

end DraftLint.Text
