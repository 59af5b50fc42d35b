import DraftLint.Text.Case
import DraftLint.Pattern.Build
import Mathlib.Tactic.SplitIfs

/-!
# Case of letters

No character has a digit as its other case, and the letters of the Latin alphabet, with all that passes for
them when case is ignored, have no digit as their small form.
-/

namespace DraftLint.Text

section Characters

variable {c : Char}

/-- What is true of the characters at the code points below a bound can be found out one by one. -/
theorem forall_of_lt {b : Nat} {p : Char → Prop} (hp : ∀ n < b, p (Char.ofNat n)) : ∀ c : Char, c.toNat < b → p c := by
  intro c h
  rw [← Char.ofNat_toNat c]
  exact hp c.toNat h

theorem forall_of_mem {ns : List Nat} {p : Char → Prop} (hp : ∀ n ∈ ns, p (Char.ofNat n)) :
    ∀ c : Char, c.toNat ∈ ns → p c := by
  intro c h
  rw [← Char.ofNat_toNat c]
  exact hp c.toNat h

theorem isDecimal_of_lt (h : c.toNat < 0x80) : isDecimal c = (0x30 ≤ c.toNat && c.toNat ≤ 0x39) := by
  simp only [isDecimal, digitValue?, if_pos h]
  split_ifs with hd
  · simpa using hd
  · simpa using hd

theorem isDigitLike_of_lt (h : c.toNat < 0x80) : isDigitLike c = isDecimal c := by
  have hornamental : ∀ r ∈ ornamentalDigits, 0x80 ≤ r.1 := by decide
  have hnone : inRanges ornamentalDigits c.toNat = false := by
    rw [inRanges, List.any_eq_false]
    intro r hr
    have hle := hornamental r hr
    simp only [Bool.and_eq_true, decide_eq_true_eq]
    omega
  rw [isDigitLike, hnone, Bool.or_false]

/-- From the capital A to the small z there are no digits. -/
theorem not_isDigitLike_of_letter (h : 0x41 ≤ c.toNat ∧ c.toNat ≤ 0x7A) : isDigitLike c = false := by
  rw [isDigitLike_of_lt (by omega), isDecimal_of_lt (by omega), Bool.and_eq_false_iff,
    decide_eq_false_iff_not, decide_eq_false_iff_not]
  omega

theorem toLower_eq_or_letter (c : Char) :
    c.toLower = c ∨ (0x61 ≤ c.toLower.toNat ∧ c.toLower.toNat ≤ 0x7A) := by
  unfold Char.toLower
  split_ifs with h
  · right
    simp only [Char.toNat, ge_iff_le, UInt32.le_iff_toNat_le] at h ⊢
    simp [UInt32.toNat_add] at h ⊢
    omega
  · exact Or.inl rfl

theorem toUpper_eq_or_letter (c : Char) :
    c.toUpper = c ∨ (0x41 ≤ c.toUpper.toNat ∧ c.toUpper.toNat ≤ 0x5A) := by
  unfold Char.toUpper
  split_ifs with h
  · right
    simp only [Char.toNat, UInt32.le_iff_toNat_le] at h ⊢
    simp [UInt32.toNat_add] at h ⊢
    omega
  · exact Or.inl rfl

/-- Only capitals of the Latin alphabet have another small letter in it. -/
theorem toLower_eq_or_capital (c : Char) : c.toLower = c ∨ (0x41 ≤ c.toNat ∧ c.toNat ≤ 0x5A) := by
  unfold Char.toLower
  split_ifs with h
  · right
    simp only [Char.toNat, ge_iff_le, UInt32.le_iff_toNat_le] at h ⊢
    simpa using h
  · exact Or.inl rfl

/-- Only small letters of the Latin alphabet have another capital in it. -/
theorem toUpper_eq_or_small (c : Char) : c.toUpper = c ∨ (0x61 ≤ c.toNat ∧ c.toNat ≤ 0x7A) := by
  unfold Char.toUpper
  split_ifs with h
  · right
    simp only [Char.toNat, UInt32.le_iff_toNat_le] at h ⊢
    simpa using h
  · exact Or.inl rfl

/-- Between the capital A and the small z there are no blanks. -/
theorem not_isBlank_of_letter (h : 0x41 ≤ c.toNat ∧ c.toNat ≤ 0x7A) : isBlank c = false := by
  simp only [isBlank, Bool.or_eq_false_iff, Bool.and_eq_false_iff, decide_eq_false_iff_not,
    beq_eq_false_iff_ne]
  omega

theorem letter_iff (c : Char) : CharSet.letter c ↔
    (0x61 ≤ c.toNat ∧ c.toNat ≤ 0x7A) ∨ (0x41 ≤ c.toNat ∧ c.toNat ≤ 0x5A) := by
  simp only [CharSet.letter, CharSet.or, CharSet.lower, CharSet.upper, CharSet.range, Bool.or_eq_true,
    Bool.and_eq_true, decide_eq_true_eq]
  exact Iff.rfl

theorem digit_iff : CharSet.digit c ↔ 0x30 ≤ c.toNat ∧ c.toNat ≤ 0x39 := by
  simp only [CharSet.digit, CharSet.range, Bool.and_eq_true, decide_eq_true_eq]
  exact Iff.rfl

theorem bounds_of_letter (h : CharSet.letter c) : 0x41 ≤ c.toNat ∧ c.toNat ≤ 0x7A := by
  rw [letter_iff] at h
  omega

theorem ignoreCase_of_mem {s : CharSet} (h : s c) : s.ignoreCase c := by
  refine List.any_eq_true.mpr ⟨c, ?_, h⟩
  unfold CharSet.caseForms
  split_ifs <;> exact List.mem_cons_self ..

/-- A set without letters of the Latin alphabet has no other members when case is ignored. -/
theorem mem_of_ignoreCase {s : CharSet} (hs : ∀ d : Char, CharSet.letter d → s d = false)
    (h : s.ignoreCase c) : s c := by
  obtain ⟨d, hd, hmem⟩ := List.any_eq_true.mp h
  have hletter : ∀ e : Char, CharSet.letter e → s e → s c := by
    intro e he hm
    rw [hs e he] at hm
    cases hm
  unfold CharSet.caseForms at hd
  split_ifs at hd <;> simp only [List.mem_cons, List.not_mem_nil, or_false] at hd <;>
    rcases hd with rfl | rfl | rfl
  case pos.inl | pos.inl | pos.inl | neg.inl => exact hmem
  case neg.inr.inl =>
    rcases toLower_eq_or_letter c with hc | hc
    · rwa [hc] at hmem
    · exact hletter _ ((letter_iff _).mpr (.inl hc)) hmem
  case neg.inr.inr =>
    rcases toUpper_eq_or_letter c with hc | hc
    · rwa [hc] at hmem
    · exact hletter _ ((letter_iff _).mpr (.inr hc)) hmem
  all_goals exact hletter _ (by decide) hmem

/-- Case does not matter to a character that is no letter of the Latin alphabet. -/
theorem eq_of_only_ignoreCase {x : Char} (hx : CharSet.letter x = false) (h : (CharSet.only x).ignoreCase c) :
    c = x := by
  refine beq_iff_eq.mp (mem_of_ignoreCase (s := CharSet.only x) (fun d hd => ?_) h)
  rw [CharSet.only, beq_eq_false_iff_ne]
  rintro rfl
  rw [hx] at hd
  cases hd

/-- Case does not matter to decimal digits. -/
theorem isDecimal_of_ignoreCase (h : CharSet.decimal.ignoreCase c) : isDecimal c := by
  refine mem_of_ignoreCase (s := CharSet.decimal) ?_ h
  intro d hd
  have hbounds := bounds_of_letter hd
  rw [CharSet.decimal, ← isDigitLike_of_lt (by omega)]
  exact not_isDigitLike_of_letter hbounds

/-- Case does not matter to blanks. -/
theorem isBlank_of_ignoreCase (h : CharSet.blank.ignoreCase c) : isBlank c :=
  mem_of_ignoreCase (s := CharSet.blank) (fun _ hd => not_isBlank_of_letter (bounds_of_letter hd)) h

/-- Case does not matter to plain digits. -/
theorem digit_of_ignoreCase (h : CharSet.digit.ignoreCase c) : CharSet.digit c := by
  refine mem_of_ignoreCase (fun d hd => ?_) h
  have hletter := bounds_of_letter hd
  rw [Bool.eq_false_iff]
  intro hdigit
  have hbounds := digit_iff.mp hdigit
  omega

theorem isDecimal_of_digit (h : CharSet.digit c) : isDecimal c := by
  have hbounds := digit_iff.mp h
  rw [isDecimal_of_lt (by omega), Bool.and_eq_true, decide_eq_true_eq, decide_eq_true_eq]
  exact hbounds

theorem isDecimal_of_digit_ignoreCase (h : CharSet.digit.ignoreCase c) : isDecimal c :=
  isDecimal_of_digit (digit_of_ignoreCase h)

/-- What passes for a letter of the Latin alphabet: a letter of it, the long s, the Kelvin sign, the dotted
capital and the dotless small i. -/
theorem letter_or_special_of_ignoreCase (h : CharSet.letter.ignoreCase c) :
    CharSet.letter c ∨ c.toNat ∈ [0x17F, 0x212A, 0x130, 0x131] := by
  obtain ⟨d, hd, hletter⟩ := List.any_eq_true.mp h
  unfold CharSet.caseForms at hd
  split_ifs at hd with hs hk hi
  · exact .inr (by simp_all)
  · exact .inr (by simp_all)
  · exact .inr (by simp_all)
  · left
    simp only [List.mem_cons, List.not_mem_nil, or_false] at hd
    rcases hd with rfl | rfl | rfl
    · exact hletter
    · rcases toLower_eq_or_capital c with hc | hc
      · rwa [hc] at hletter
      · exact (letter_iff c).mpr (.inr hc)
    · rcases toUpper_eq_or_small c with hc | hc
      · rwa [hc] at hletter
      · exact (letter_iff c).mpr (.inl hc)

theorem letter_of_ignoreCase (h : CharSet.lower.ignoreCase c) :
    (0x41 ≤ c.toNat ∧ c.toNat ≤ 0x7A) ∨ c.toNat ∈ [0x17F, 0x212A, 0x130, 0x131] := by
  have hletter : CharSet.letter.ignoreCase c := by
    obtain ⟨d, hd, hlower⟩ := List.any_eq_true.mp h
    exact List.any_eq_true.mpr ⟨d, hd, by rw [CharSet.letter, CharSet.or, hlower, Bool.true_or]⟩
  exact (letter_or_special_of_ignoreCase hletter).imp_left bounds_of_letter

theorem lower_ignoreCase_of_only {x : Char} (hx : CharSet.lower x) (h : (CharSet.only x).ignoreCase c) :
    CharSet.lower.ignoreCase c := by
  obtain ⟨d, hd, hdx⟩ := List.any_eq_true.mp h
  obtain rfl := beq_iff_eq.mp hdx
  exact List.any_eq_true.mpr ⟨d, hd, hx⟩

/-- What holds of the letters and of the four other characters holds of all that passes for a letter. -/
theorem forall_lower_ignoreCase {p : Char → Prop}
    (hletter : ∀ c : Char, 0x41 ≤ c.toNat ∧ c.toNat ≤ 0x7A → p c)
    (hspecial : ∀ n ∈ [0x17F, 0x212A, 0x130, 0x131], p (Char.ofNat n)) (h : CharSet.lower.ignoreCase c) :
    p c := by
  rcases letter_of_ignoreCase h with hc | hc
  · exact hletter c hc
  · exact forall_of_mem hspecial c hc

theorem not_isBlank_of_ignoreCase (h : CharSet.lower.ignoreCase c) : isBlank c = false :=
  forall_lower_ignoreCase (fun _ => not_isBlank_of_letter) (by decide) h

theorem not_isDecimal_of_ignoreCase (h : CharSet.lower.ignoreCase c) : isDecimal c = false := by
  refine forall_lower_ignoreCase (p := fun c => isDecimal c = false) ?_ (by decide) h
  intro c hc
  rw [← isDigitLike_of_lt (by omega)]
  exact not_isDigitLike_of_letter hc

theorem eq_of_only_d_ignoreCase (h : (CharSet.only 'd').ignoreCase c) : c = 'd' ∨ c = 'D' := by
  have hascii : ∀ c : Char, c.toNat < 0x80 → (CharSet.only 'd').ignoreCase c → c = 'd' ∨ c = 'D' :=
    forall_of_lt (by decide)
  exact forall_lower_ignoreCase (p := fun c => (CharSet.only 'd').ignoreCase c → c = 'd' ∨ c = 'D')
    (fun c hc => hascii c (by omega)) (by decide) (lower_ignoreCase_of_only (by decide) h) h

theorem not_isDigitLike_lowerChar (h : CharSet.lower.ignoreCase c) :
    ∀ d ∈ lowerChar c, isDigitLike d = false := by
  have hall : (lowerChar c).all (fun d => !isDigitLike d) = true := by
    refine forall_lower_ignoreCase (p := fun c => (lowerChar c).all (fun d => !isDigitLike d) = true) ?_
      (by decide) h
    intro c hc
    rw [lowerChar, if_pos (by omega), List.all_cons, List.all_nil, Bool.and_true, Bool.not_eq_true']
    rcases toLower_eq_or_letter c with hl | hl
    · rw [hl]
      exact not_isDigitLike_of_letter hc
    · exact not_isDigitLike_of_letter (by omega)
  simpa using hall

/-- A number that is no code point stands for the null character. -/
theorem toNat_ofNat_eq_or_zero (n : Nat) : (Char.ofNat n).toNat = n ∨ (Char.ofNat n).toNat = 0 := by
  unfold Char.ofNat
  by_cases h : n.isValidChar
  · rw [dif_pos h]
    exact .inl rfl
  · rw [dif_neg h]
    exact .inr rfl

/-- Above ASCII no capital has one of the first four letters of the Latin alphabet as its small form. -/
theorem lt_of_mem_runs : ∀ r ∈ CaseTable.runs, 0x64 < r.first + r.shift := by
  decide +kernel

theorem between_of_small? {r : CaseTable.Run} {n m : Nat} (h : r.small? n = some m) :
    (r.first ≤ n ∧ n ≤ r.last) ∧ ((n : Int) + r.shift).toNat = m := by
  unfold CaseTable.Run.small? at h
  split_ifs at h with hn
  simp only [Bool.and_eq_true, decide_eq_true_eq] at hn
  exact ⟨hn.1, Option.some.inj h⟩

/-- The small d is the small form of the letter d alone. -/
theorem eq_of_d_mem_lowerChar (h : 'd' ∈ lowerChar c) : c = 'd' ∨ c = 'D' := by
  have hascii : ∀ c : Char, c.toNat < 0x80 → c.toLower = 'd' → c = 'd' ∨ c = 'D' := forall_of_lt (by decide)
  unfold lowerChar at h
  simp only at h
  split_ifs at h with hlt hdotted
  · exact hascii c hlt (List.mem_singleton.mp h).symm
  · exact absurd h (by decide)
  · cases hfound : CaseTable.runs.findSome? (·.small? c.toNat) with
    | none =>
      rw [hfound] at h
      exact .inl (List.mem_singleton.mp h).symm
    | some small =>
      rw [hfound] at h
      obtain ⟨run, hrun, hsmall⟩ := List.exists_of_findSome?_eq_some hfound
      have hlow := lt_of_mem_runs run hrun
      obtain ⟨hrange, hvalue⟩ := between_of_small? hsmall
      have hd : 0x64 = (Char.ofNat small).toNat := congrArg Char.toNat (List.mem_singleton.mp h)
      rcases toNat_ofNat_eq_or_zero small with hn | hn
      · omega
      · omega

theorem only_ignoreCase {x : Char} (hx : CharSet.letter x = false) : (CharSet.only x).ignoreCase = CharSet.only x := by
  funext c
  rw [Bool.eq_iff_iff]
  exact ⟨fun h => beq_iff_eq.mpr (eq_of_only_ignoreCase hx h), ignoreCase_of_mem⟩

/-- The code points of the blanks. -/
def blanks : List Nat :=
  [0x9, 0xA, 0xB, 0xC, 0xD, 0x1C, 0x1D, 0x1E, 0x1F, 0x20, 0x85, 0xA0, 0x1680, 0x2000, 0x2001, 0x2002, 0x2003, 0x2004,
    0x2005, 0x2006, 0x2007, 0x2008, 0x2009, 0x200A, 0x2028, 0x2029, 0x202F, 0x205F, 0x3000]

theorem mem_blanks (h : isBlank c) : c.toNat ∈ blanks := by
  simp only [isBlank, Bool.or_eq_true, Bool.and_eq_true, decide_eq_true_eq, beq_iff_eq] at h
  simp only [blanks, List.mem_cons, List.not_mem_nil, or_false]
  omega

/-- What is true of each of these code points is true of all blanks. -/
theorem forall_blank {p : Char → Prop} (hp : ∀ n ∈ blanks, p (Char.ofNat n)) (h : isBlank c) : p c :=
  forall_of_mem hp c (mem_blanks h)

theorem not_isWord_of_isBlank (h : isBlank c) : isWord c = false :=
  forall_blank (p := fun c => isWord c = false) (by decide +kernel) h

theorem eq_of_mem_caseForms_of_isBlank (h : isBlank c) : ∀ d ∈ CharSet.caseForms c, d = c :=
  forall_blank (p := fun c => ∀ d ∈ CharSet.caseForms c, d = c) (by decide) h

/-- A blank has no other case. -/
theorem ignoreCase_of_isBlank (s : CharSet) (h : isBlank c) : s.ignoreCase c = s c := by
  rw [Bool.eq_iff_iff]
  refine ⟨fun hs => ?_, ignoreCase_of_mem⟩
  obtain ⟨d, hd, hs⟩ := List.any_eq_true.mp hs
  rwa [← eq_of_mem_caseForms_of_isBlank h d hd]

theorem eq_of_mem_caseForms_of_isDecimal (h : isDecimal c) : ∀ d ∈ CharSet.caseForms c, d = c := by
  have hletter : ¬(0x41 ≤ c.toNat ∧ c.toNat ≤ 0x7A) := by
    intro hc
    rw [← isDigitLike_of_lt (by omega), not_isDigitLike_of_letter hc] at h
    cases h
  have hspecial : c.toNat ∉ [0x17F, 0x212A, 0x130, 0x131] := by
    intro hc
    have hnone := forall_of_mem (p := fun c => isDecimal c = false) (by decide) c hc
    rw [h] at hnone
    cases hnone
  simp only [List.mem_cons, List.not_mem_nil, or_false, not_or] at hspecial
  intro d hd
  simp only [CharSet.caseForms, beq_iff_eq, hspecial, if_false, Bool.or_eq_true, or_self, List.mem_cons,
    List.not_mem_nil, or_false] at hd
  rcases hd with rfl | rfl | rfl
  · rfl
  · refine (toLower_eq_or_capital c).resolve_right fun hc => hletter ⟨hc.1, by omega⟩
  · refine (toUpper_eq_or_small c).resolve_right fun hc => hletter ⟨by omega, hc.2⟩

/-- A decimal has no other case. -/
theorem ignoreCase_of_isDecimal (s : CharSet) (h : isDecimal c) : s.ignoreCase c = s c := by
  rw [Bool.eq_iff_iff]
  refine ⟨fun hs => ?_, ignoreCase_of_mem⟩
  obtain ⟨d, hd, hs⟩ := List.any_eq_true.mp hs
  rwa [← eq_of_mem_caseForms_of_isDecimal h d hd]

end Characters

section Texts

variable {t : Text} {c d : Char}

theorem mem_lowerFrom {before : Text} (h : d ∈ lowerFrom before t) :
    ∃ c ∈ t, d ∈ lowerChar c ∨ c.toNat = 0x3A3 ∧ d.toNat ∈ [0x3C2, 0x3C3] := by
  induction t generalizing before with
  | nil => simp [lowerFrom] at h
  | cons c t ih =>
    simp only [lowerFrom, List.mem_append] at h
    rcases h with h | h
    · refine ⟨c, List.mem_cons_self .., ?_⟩
      split_ifs at h with hs
      · exact .inr ⟨beq_iff_eq.mp hs, by simp [List.mem_singleton.mp h]⟩
      · exact .inr ⟨beq_iff_eq.mp hs, by simp [List.mem_singleton.mp h]⟩
      · exact .inl h
    · obtain ⟨c', hc', hd⟩ := ih h
      exact ⟨c', List.mem_cons_of_mem _ hc', hd⟩

theorem mem_of_d_mem_lower (h : 'd' ∈ lower t) : 'd' ∈ t ∨ 'D' ∈ t := by
  obtain ⟨c, hc, hsmall | ⟨-, hsigma⟩⟩ := mem_lowerFrom h
  · rcases eq_of_d_mem_lowerChar hsmall with rfl | rfl
    · exact .inl hc
    · exact .inr hc
  · exact absurd hsigma (by decide)

theorem mem_of_mem_dropRightWhile {p : Char → Bool} (h : c ∈ dropRightWhile p t) : c ∈ t := by
  rw [dropRightWhile, List.mem_reverse] at h
  exact List.mem_reverse.mp ((List.dropWhile_sublist p).subset h)

theorem mem_of_mem_trim (h : c ∈ trim t) : c ∈ t :=
  (List.dropWhile_sublist isBlank).subset (mem_of_mem_dropRightWhile h)

end Texts

end DraftLint.Text
