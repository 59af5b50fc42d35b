import DraftLint.Text.Numeral
import Mathlib.Algebra.Group.Nat.Defs
import Mathlib.Data.List.TakeWhile
import Mathlib.Tactic.SplitIfs

/-!
# Reading numerals

Decimal digits of any script make a numeral, unless there are too many of them.  What it writes is bounded
by the number of its digits.
-/

namespace DraftLint.Text

/-- Decimal digits, at least one and no more than a numeral may have. -/
structure IsNumeral (t : Text) : Prop where
  ne_nil : t ≠ []
  isDecimal : ∀ c ∈ t, isDecimal c
  length_le : t.length ≤ maxNumeralDigits

instance (t : Text) : Decidable t.IsNumeral :=
  decidable_of_iff (t ≠ [] ∧ t.all isDecimal ∧ t.length ≤ maxNumeralDigits)
    ⟨fun h => ⟨h.1, List.all_eq_true.mp h.2.1, h.2.2⟩,
      fun h => ⟨h.ne_nil, List.all_eq_true.mpr h.isDecimal, h.length_le⟩⟩

section Digits

variable {c : Char} {d : Nat}

/-- A digit follows the zero of its script. -/
theorem exists_zero_of_digitValue? (h : digitValue? c = some d) :
    ∃ z ∈ zeros, c.toNat = z + d ∧ d ≤ 9 := by
  simp only [digitValue?] at h
  split_ifs at h with hascii hdigit
  · simp only [Bool.and_eq_true, decide_eq_true_eq] at hdigit
    obtain rfl := Option.some.inj h
    exact ⟨0x30, by decide, by omega, by omega⟩
  · obtain ⟨z, hz, rfl⟩ := Option.map_eq_some_iff.mp h
    have hrange := List.find?_some hz
    simp only [Bool.and_eq_true, decide_eq_true_eq] at hrange
    exact ⟨z, List.mem_of_find?_eq_some hz, by omega, by omega⟩

theorem digitValue?_lt (h : digitValue? c = some d) : d < 10 := by
  obtain ⟨z, -, -, hd⟩ := exists_zero_of_digitValue? h
  omega

/-- The digits of no script lie among the blanks. -/
theorem zeros_apart : ∀ z ∈ zeros,
    (0x20 < z ∧ z + 9 < 0x85 ∨ 0xA0 < z) ∧ (z + 9 < 0x1680 ∨ 0x1680 < z) ∧
      (z + 9 < 0x2000 ∨ 0x205F < z) ∧ (z + 9 < 0x3000 ∨ 0x3000 < z) := by
  decide

theorem not_isBlank_of_isDecimal (h : isDecimal c) : isBlank c = false := by
  obtain ⟨d, hd⟩ := Option.isSome_iff_exists.mp h
  obtain ⟨z, hz, hc, hle⟩ := exists_zero_of_digitValue? hd
  have hapart := zeros_apart z hz
  rw [Bool.eq_false_iff]
  intro hb
  simp only [isBlank, Bool.or_eq_true, Bool.and_eq_true, decide_eq_true_eq, beq_iff_eq] at hb
  omega

/-- Nor do the ornamental ones. -/
theorem ornamentalDigits_apart : ∀ r ∈ ornamentalDigits,
    0xA0 < r.1 ∧ (r.2 < 0x1680 ∨ 0x1680 < r.1) ∧ (r.2 < 0x2000 ∨ 0x205F < r.1) ∧
      (r.2 < 0x3000 ∨ 0x3000 < r.1) := by
  decide

theorem isDigitLike_of_isDecimal (h : isDecimal c) : isDigitLike c := by
  rw [isDigitLike, h, Bool.true_or]

theorem not_isBlank_of_isDigitLike (h : isDigitLike c) : isBlank c = false := by
  rcases Bool.or_eq_true_iff.mp h with h | h
  · exact not_isBlank_of_isDecimal h
  · obtain ⟨r, hr, hc⟩ := List.any_eq_true.mp h
    have hapart := ornamentalDigits_apart r hr
    rw [Bool.eq_false_iff]
    intro hb
    simp only [isBlank, Bool.or_eq_true, Bool.and_eq_true, decide_eq_true_eq, beq_iff_eq] at hb hc
    omega

theorem ne_of_isDigitLike {x : Char} (h : isDigitLike c) (hx : isDigitLike x = false) : c ≠ x := by
  rintro rfl
  rw [h] at hx
  cases hx

theorem ne_of_isDecimal {x : Char} (h : isDecimal c) (hx : isDecimal x = false) : c ≠ x := by
  rintro rfl
  rw [h] at hx
  cases hx

end Digits

section Read

variable {t : Text}

theorem groupedDigits?_cons {c : Char} {t : Text} (hne : t ≠ []) (h : t.head? ≠ some '_') :
    groupedDigits? (c :: t) = (digitValue? c).bind fun d => (groupedDigits? t).map (d :: ·) := by
  obtain ⟨x, t, rfl⟩ := List.exists_cons_of_ne_nil hne
  have hx : x ≠ '_' := by simpa using h
  rw [groupedDigits?]
  · cases digitValue? c <;> cases groupedDigits? (x :: t) <;> rfl
  · simp
  · intro t' ht'
    exact hx (List.cons.inj ht').1

/-- Digits that nothing separates are read one by one. -/
theorem groupedDigits?_of_isDecimal (hne : t ≠ []) (h : ∀ c ∈ t, isDecimal c) :
    groupedDigits? t = some (t.filterMap digitValue?) := by
  induction t with
  | nil => exact absurd rfl hne
  | cons c t ih =>
    obtain ⟨d, hd⟩ := Option.isSome_iff_exists.mp (h c (List.mem_cons_self ..))
    by_cases ht : t = []
    · rw [ht, groupedDigits?, hd, List.filterMap_cons_some hd]
      rfl
    · have hline : t.head? ≠ some '_' := by
        intro hx
        have hmem := List.mem_of_head? hx
        exact ne_of_isDecimal (h '_' (List.mem_cons_of_mem _ hmem)) (by decide) rfl
      have hrest := ih ht fun x hx => h x (List.mem_cons_of_mem _ hx)
      rw [groupedDigits?_cons ht hline, hd, hrest, List.filterMap_cons_some hd]
      rfl

/-- Each digit has a value, and none is more than nine. -/
theorem length_digits (h : ∀ c ∈ t, isDecimal c) : (t.filterMap digitValue?).length = t.length := by
  induction t with
  | nil => rfl
  | cons c t ih =>
    obtain ⟨d, hd⟩ := Option.isSome_iff_exists.mp (h c (List.mem_cons_self ..))
    rw [List.filterMap_cons_some hd, List.length_cons, List.length_cons,
      ih fun x hx => h x (List.mem_cons_of_mem _ hx)]

theorem lt_of_mem_digits {d : Nat} (h : d ∈ t.filterMap digitValue?) : d < 10 := by
  obtain ⟨c, -, hd⟩ := List.mem_filterMap.mp h
  exact digitValue?_lt hd

theorem foldl_digits_lt {ds : List Nat} (h : ∀ d ∈ ds, d < 10) (n : Nat) :
    ds.foldl (fun n d => 10 * n + d) n < (n + 1) * 10 ^ ds.length := by
  induction ds generalizing n with
  | nil => simp
  | cons d ds ih =>
    have hd := h d (List.mem_cons_self ..)
    calc (d :: ds).foldl (fun n d => 10 * n + d) n
        < (10 * n + d + 1) * 10 ^ ds.length := ih (fun x hx => h x (List.mem_cons_of_mem _ hx)) _
      _ ≤ (10 * (n + 1)) * 10 ^ ds.length := Nat.mul_le_mul_right _ (by omega)
      _ = (n + 1) * 10 ^ (ds.length + 1) := by rw [Nat.pow_succ]; ac_rfl

theorem natural?_of_isDecimal (hne : t ≠ []) (h : ∀ c ∈ t, isDecimal c) :
    natural? t = if t.length ≤ maxNumeralDigits then some (ofDigits (t.filterMap digitValue?)) else none := by
  rw [natural?, groupedDigits?_of_isDecimal hne h, ← length_digits h]
  rfl

theorem IsNumeral.natural? (h : t.IsNumeral) : ∃ n, natural? t = some n ∧ n < 10 ^ t.length := by
  refine ⟨ofDigits (t.filterMap digitValue?), ?_, ?_⟩
  · rw [natural?_of_isDecimal h.ne_nil h.isDecimal, if_pos h.length_le]
  · have hlt := foldl_digits_lt (fun d (hd : d ∈ t.filterMap digitValue?) => lt_of_mem_digits hd) 0
    rwa [length_digits h.isDecimal, Nat.zero_add, Nat.one_mul] at hlt

theorem dropWhile_eq_self {p : Char → Bool} (h : ∀ c ∈ t, p c = false) : t.dropWhile p = t := by
  rw [List.dropWhile_eq_self_iff]
  intro hl
  simp [h _ (List.getElem_mem hl)]

theorem dropRightWhile_eq_self {p : Char → Bool} (h : ∀ c ∈ t, p c = false) :
    dropRightWhile p t = t := by
  have hreverse : t.reverse.dropWhile p = t.reverse := dropWhile_eq_self (by simpa using h)
  rw [dropRightWhile, hreverse, List.reverse_reverse]

/-- Digits have neither blanks around them nor a sign. -/
theorem integer?_of_isDigitLike (h : ∀ c ∈ t, isDigitLike c) :
    integer? t = (Text.natural? t).map Int.ofNat := by
  have hblank : ∀ c ∈ t, isNumeralBlank c = false := by
    intro c hc
    rw [isNumeralBlank, not_isBlank_of_isDigitLike (h c hc), Bool.false_and]
  rw [integer?, dropWhile_eq_self hblank, dropRightWhile_eq_self hblank]
  split
  · exact absurd rfl (ne_of_isDigitLike (h '-' (List.mem_cons_self ..)) (by decide))
  · exact absurd rfl (ne_of_isDigitLike (h '+' (List.mem_cons_self ..)) (by decide))
  · rfl

theorem integer?_of_isDecimal (h : ∀ c ∈ t, isDecimal c) :
    integer? t = (Text.natural? t).map Int.ofNat :=
  integer?_of_isDigitLike fun c hc => isDigitLike_of_isDecimal (h c hc)

/-- A numeral is read as a number. -/
theorem IsNumeral.integer? (h : t.IsNumeral) :
    ∃ n : Nat, integer? t = some (n : Int) ∧ n < 10 ^ t.length := by
  obtain ⟨n, hn, hlt⟩ := h.natural?
  refine ⟨n, ?_, hlt⟩
  rw [integer?_of_isDecimal h.isDecimal, hn]
  rfl

/-- Digits are read as a number unless there are too many. -/
theorem isSome_integer?_iff (hne : t ≠ []) (h : ∀ c ∈ t, isDecimal c) :
    (integer? t).isSome ↔ t.length ≤ maxNumeralDigits := by
  rw [integer?_of_isDecimal h, Option.isSome_map, natural?_of_isDecimal hne h]
  split_ifs with hle
  · exact iff_of_true rfl hle
  · exact iff_of_false Bool.false_ne_true hle

/-- Only decimal digits have a value, and only low lines stand between them. -/
theorem isDecimal_of_groupedDigits? {ds : List Nat} (h : groupedDigits? t = some ds) :
    ∀ c ∈ t, isDecimal c ∨ c = '_' := by
  have hdigit : ∀ {c d}, digitValue? c = some d → isDecimal c := fun hd => Option.isSome_of_mem hd
  induction t using groupedDigits?.induct generalizing ds with
  | case1 => cases h
  | case2 c =>
    obtain ⟨d, hd, -⟩ := Option.map_eq_some_iff.mp h
    exact List.forall_mem_singleton.mpr (.inl (hdigit hd))
  | case3 c t ih =>
    obtain ⟨d, hd, h⟩ := Option.bind_eq_some_iff.mp h
    obtain ⟨ds', hds, -⟩ := Option.bind_eq_some_iff.mp h
    rw [List.forall_mem_cons, List.forall_mem_cons]
    exact ⟨.inl (hdigit hd), .inr rfl, ih hds⟩
  | case4 c t hne hline ih =>
    rw [groupedDigits?] at h
    · obtain ⟨d, hd, h⟩ := Option.bind_eq_some_iff.mp h
      obtain ⟨ds', hds, -⟩ := Option.bind_eq_some_iff.mp h
      exact List.forall_mem_cons.mpr ⟨.inl (hdigit hd), ih hds⟩
    · exact hne
    · exact hline

/-- Among texts of digits, decimal or ornamental, only numerals are read as numbers. -/
theorem isNumeral_of_isSome_integer? (hne : t ≠ []) (hdigit : ∀ c ∈ t, isDigitLike c)
    (h : (integer? t).isSome) : t.IsNumeral := by
  rw [integer?_of_isDigitLike hdigit, Option.isSome_map] at h
  obtain ⟨n, hn⟩ := Option.isSome_iff_exists.mp h
  obtain ⟨ds, hds, -⟩ := Option.bind_eq_some_iff.mp hn
  have hdecimal : ∀ c ∈ t, isDecimal c := by
    intro c hc
    refine (isDecimal_of_groupedDigits? hds c hc).resolve_right ?_
    exact ne_of_isDigitLike (hdigit c hc) (by decide)
  refine ⟨hne, hdecimal, (isSome_integer?_iff hne hdecimal).mp ?_⟩
  rw [integer?_of_isDecimal hdecimal, Option.isSome_map]
  exact Option.isSome_of_mem hn

end Read

end DraftLint.Text
