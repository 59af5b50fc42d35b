import DraftLint.Calendar.Written
import DraftLint.Proofs.Pattern.Matching
import DraftLint.Proofs.Text.Case
import DraftLint.Proofs.Text.Numeral
import DraftLint.Proofs.Text.Words

/-!
# Dates that are read

Three numbers are a date exactly if they are the parts of one.  A date as it stands on a front page is read
without fail, and it can be completed on any day: its parts leave room for those that are missing.
-/

namespace DraftLint

/-- To leave out one value makes no difference to another one, or to none. -/
theorem filter_ne_eq_self {α : Type} [DecidableEq α] {x : α} {o : Option α} (h : o ≠ some x) :
    o.filter (· ≠ x) = o := by
  cases o with
  | none => rfl
  | some y => exact Option.filter_some_pos (by simpa using h)

namespace Date

open Calendar

theorem of?_eq_some_iff {year month day : Int} {x : Date} :
    of? year month day = some x ↔ year = x.year ∧ month = x.month ∧ day = x.day := by
  unfold of?
  constructor
  · intro h
    split_ifs at h with hneg hday
    obtain rfl := Option.some.inj h
    simp only
    omega
  · rintro ⟨rfl, rfl, rfl⟩
    have hneg : ¬((x.year : Int) < 0 ∨ (x.month : Int) < 0 ∨ (x.day : Int) < 0) := by omega
    rw [if_neg hneg]
    simp only [Int.toNat_natCast]
    rw [dif_pos x.isDay]

theorem daysInMonth_le (year month : Nat) : 28 ≤ daysInMonth year month ∧ daysInMonth year month ≤ 31 := by
  unfold daysInMonth
  split_ifs <;> omega

theorem inWord_of_bounds {n : Int} (h : 0 ≤ n ∧ n ≤ 9999) : inWord n = true := by
  simp only [inWord, Bool.and_eq_true, decide_eq_true_eq]
  omega

theorem inWord_parts (x : Date) : inWord x.year ∧ inWord x.month ∧ inWord x.day := by
  obtain ⟨hyear, hmonth, hday⟩ := x.isDay
  have hle := (daysInMonth_le x.year x.month).2
  exact ⟨inWord_of_bounds (by omega), inWord_of_bounds (by omega), inWord_of_bounds (by omega)⟩

/-- Three numbers are the parts of a date, or they name none. -/
theorem ofParts_eq_some_iff {year month day : Int} {x : Date} :
    ofParts year month day = .ok (some x) ↔ year = x.year ∧ month = x.month ∧ day = x.day := by
  rw [← of?_eq_some_iff]
  unfold ofParts
  constructor
  · intro h
    split_ifs at h
    exact Except.ok.inj h
  · intro h
    obtain ⟨rfl, rfl, rfl⟩ := of?_eq_some_iff.mp h
    obtain ⟨hyear, hmonth, hday⟩ := inWord_parts x
    rw [hyear, hmonth, hday, h]
    rfl

end Date

namespace Calendar

theorem monthBeginning?_le {name : Text} {n : Nat} (h : monthBeginning? name = some n) :
    1 ≤ n ∧ n ≤ 12 := by
  obtain ⟨i, hi, rfl⟩ := Option.map_eq_some_iff.mp h
  obtain ⟨hlt, -⟩ := List.findIdx?_eq_some_iff_getElem.mp hi
  have hlength : monthNames.length = 12 := rfl
  omega

theorem monthNumber_le {name : Text} {n : Nat} (h : monthNumber name = .ok (some n)) :
    1 ≤ n ∧ n ≤ 12 := by
  simp only [monthNumber] at h
  split_ifs at h
  · split at h
    · cases h
    · have hn := Except.ok.inj h
      split_ifs at hn with hbounds
      obtain rfl := Option.some.inj hn
      omega
  · cases h
  · exact monthBeginning?_le (Except.ok.inj h)

theorem monthNumber_eq_error {name : Text} {e : Failure} (h : monthNumber name = .error e) :
    e = .notANumber := by
  simp only [monthNumber] at h
  split_ifs at h
  · split at h
    · exact (Except.error.inj h).symm
    · cases h

/-- A month written in letters is no numeral. -/
theorem allDigits_of_letters {name : Text} (h : ∀ c ∈ name, CharSet.lower.ignoreCase c) :
    Text.allDigits (Text.dropRightWhile (· == '.') (Text.lower (Text.trim name))) = false := by
  rw [Bool.eq_false_iff]
  intro hall
  rw [Text.allDigits, Bool.and_eq_true, Bool.not_eq_true', List.isEmpty_eq_false_iff] at hall
  obtain ⟨hne, hall⟩ := hall
  obtain ⟨d, hd⟩ := List.exists_mem_of_ne_nil _ hne
  obtain ⟨c, hc, hsmall⟩ := Text.mem_lowerFrom (Text.mem_of_mem_dropRightWhile hd)
  have hletter := h c (Text.mem_of_mem_trim hc)
  have hlike := List.all_eq_true.mp hall d hd
  rcases hsmall with hsmall | ⟨hsigma, -⟩
  · rw [Text.not_isDigitLike_lowerChar hletter d hsmall] at hlike
    cases hlike
  · have hcases := Text.letter_of_ignoreCase hletter
    simp [hsigma] at hcases

/-- So it is recognized or not. -/
theorem exists_monthNumber {name : Text} (h : ∀ c ∈ name, CharSet.lower.ignoreCase c) :
    ∃ n, monthNumber name = .ok n := by
  simp only [monthNumber, allDigits_of_letters h, Bool.false_eq_true, if_false]
  split_ifs
  · exact ⟨none, rfl⟩
  · exact ⟨_, rfl⟩

namespace WrittenDate

/-- What a date on a front page reads as. -/
structure Bounded (w : WrittenDate) : Prop where
  month : ∃ n, monthNumber w.month = .ok n
  year : 0 ≤ w.year ∧ w.year ≤ 9999
  day : ∀ d, w.day = some d → 0 ≤ d ∧ d ≤ 99

theorem Bounded.date {w : WrittenDate} (h : w.Bounded) : ∃ d, w.date = .ok d := by
  obtain ⟨n, hn⟩ := h.month
  unfold WrittenDate.date
  rw [hn]
  cases n with
  | none => exact ⟨none, rfl⟩
  | some n =>
    have hmonth := monthNumber_le hn
    have hday : 0 ≤ (w.day.filter (· ≠ 0)).getD 1 ∧ (w.day.filter (· ≠ 0)).getD 1 ≤ 99 := by
      cases hw : w.day with
      | none => simp
      | some d =>
        have hd := h.day d hw
        rw [Option.filter_some]
        split_ifs
        · exact hd
        · simp
    have hwords : (Date.inWord w.year && Date.inWord n &&
        Date.inWord ((w.day.filter (· ≠ 0)).getD 1)) = true := by
      rw [Date.inWord_of_bounds h.year, Date.inWord_of_bounds (by omega),
        Date.inWord_of_bounds (by omega)]
      rfl
    simp only [Date.ofParts, hwords]
    exact ⟨_, rfl⟩

/-- A day that is written out can be completed on any day. -/
theorem exists_complete {w : WrittenDate} {d : Date} (h : w.date = .ok (some d)) (today : Date) :
    ∃ month date, monthNumber w.month = .ok (some month) ∧
      Date.complete today (some w.year) (some (month : Int)) w.day = .ok (some date) := by
  unfold WrittenDate.date at h
  cases hmonth : monthNumber w.month with
  | error e => simp [hmonth] at h
  | ok n =>
    cases n with
    | none => simp [hmonth] at h
    | some n =>
      rw [hmonth] at h
      obtain ⟨hyear, hn, hday⟩ := Date.ofParts_eq_some_iff.mp h
      obtain rfl : n = d.month := by omega
      obtain ⟨hy, hm, hd⟩ := d.isDay
      have hyear' : (some w.year).filter (· ≠ 0) = some (d.year : Int) := by
        rw [hyear, Option.filter_some, if_pos (by simp; omega)]
      have hmonth' : (some (d.month : Int)).filter (· ≠ 0) = some (d.month : Int) := by
        rw [Option.filter_some, if_pos (by simp; omega)]
      refine ⟨d.month, ?_⟩
      simp only [Date.complete, hyear', hmonth', Option.getD_some, Date.ofParts_eq_some_iff, true_and]
      cases hw : w.day.filter (· ≠ 0) with
      | some k =>
        rw [hw] at hday
        exact ⟨d, rfl, rfl, hday⟩
      | none =>
        rw [Option.getD_none]
        split_ifs with hsame
        · exact ⟨today, hsame.1, hsame.2, rfl⟩
        · have hle := (Date.daysInMonth_le d.year d.month).1
          exact ⟨⟨d.year, d.month, 15, hy, hm, by omega, by omega⟩, rfl, rfl, rfl⟩

section Read

open Pattern

/-- What the groups of a date enclose: digits for the days and the year, letters for the month. -/
theorem encloses_pattern :
    pattern.Encloses fun n p =>
      (n = 1 ∨ n = 3) ∧ p = between 1 1 (one CharSet.digit.ignoreCase) ∨
        n = 2 ∧ p = atLeast 3 (one CharSet.lower.ignoreCase) ∨
        n = 4 ∧ p = times 4 (one CharSet.digit.ignoreCase) := by
  simp [pattern, wholeLine, all, lit, literal, ignoreCase, Encloses, maybe, textStart, lineEnd,
    Pattern.blank, Pattern.digit, Pattern.between, atLeast, times, upTo]

theorem captures_pattern : pattern.Captures 2 ∧ pattern.Captures 4 := by
  simp [pattern, wholeLine, all, ignoreCase, Captures]

/-- The number that a text writes, which has to be a numeral. -/
def number (t : Text) : Except Failure Int :=
  match Text.integer? t with
  | some n => .ok n
  | none => .error .notANumber

theorem number_of_isNumeral {t : Text} (h : t.IsNumeral) :
    ∃ n : Nat, Text.integer? t = some (n : Int) ∧ number t = .ok n ∧ n < 10 ^ t.length := by
  obtain ⟨n, hn, hlt⟩ := h.integer?
  exact ⟨n, hn, by rw [number, hn], hlt⟩

/-- The date in a text, where whatever goes wrong with its parts is a failure. -/
def attempt (t : Text) : Except Failure (Option WrittenDate) :=
  match pattern.match? (Text.trim t) with
  | none => .ok none
  | some m => do
    let day ← (m.group? 1 <|> m.group? 3).mapM number
    let year ← number ((m.group? 4).getD [])
    let written : WrittenDate := ⟨day, (m.group? 2).getD [], year⟩
    return (← written.date).map fun _ => written

variable {m : Match} {t : Text}

theorem isNumeral_of_digits {u : Text} (hall : ∀ c ∈ u, CharSet.digit.ignoreCase c) (hpos : 1 ≤ u.length)
    (hle : u.length ≤ 4) : u.IsNumeral where
  ne_nil := List.ne_nil_of_length_pos hpos
  isDecimal := fun c hc => Text.isDecimal_of_digit_ignoreCase (hall c hc)
  length_le := Nat.le_trans hle (by decide)

theorem month_of_match (h : pattern.match? t = some m) :
    ∃ month, m.group? 2 = some month ∧ ∃ n, monthNumber month = .ok n := by
  obtain ⟨v, hv⟩ := reads_of_matchAt h
  obtain ⟨month, hmonth⟩ := exists_group? captures_pattern.1 hv
  obtain ⟨p, r, r', hp, hread⟩ := group?_of_reads encloses_pattern hv hmonth
  obtain rfl : p = atLeast 3 (one CharSet.lower.ignoreCase) := by simpa using hp
  exact ⟨month, hmonth, exists_monthNumber hread.of_atLeast_one.2⟩

theorem year_of_match (h : pattern.match? t = some m) :
    ∃ year, ∃ n : Nat, m.group? 4 = some year ∧ Text.integer? year = some (n : Int) ∧ number year = .ok n ∧
      n ≤ 9999 := by
  obtain ⟨v, hv⟩ := reads_of_matchAt h
  obtain ⟨year, hyear⟩ := exists_group? captures_pattern.2 hv
  obtain ⟨p, r, r', hp, hread⟩ := group?_of_reads encloses_pattern hv hyear
  obtain rfl : p = times 4 (one CharSet.digit.ignoreCase) := by simpa using hp
  obtain ⟨hlength, hall⟩ := hread.of_times_one
  obtain ⟨n, hn, hnumber, hlt⟩ := number_of_isNumeral (isNumeral_of_digits hall (by omega) (by omega))
  rw [hlength] at hlt
  exact ⟨year, n, hyear, hn, hnumber, by omega⟩

theorem day_of_match (h : pattern.match? t = some m) {u : Text}
    (hu : (m.group? 1 <|> m.group? 3) = some u) :
    ∃ n : Nat, Text.integer? u = some (n : Int) ∧ number u = .ok n ∧ n ≤ 99 := by
  obtain ⟨v, hv⟩ := reads_of_matchAt h
  have hread : ∃ p r r', p = between 1 1 (one CharSet.digit.ignoreCase) ∧ Reads p r u r' := by
    rw [Option.orElse_eq_orElse, Option.orElse_eq_or, Option.or_eq_some_iff] at hu
    rcases hu with hu | ⟨-, hu⟩
    · obtain ⟨p, r, r', hp, hread⟩ := group?_of_reads encloses_pattern hv hu
      exact ⟨p, r, r', by simpa using hp, hread⟩
    · obtain ⟨p, r, r', hp, hread⟩ := group?_of_reads encloses_pattern hv hu
      exact ⟨p, r, r', by simpa using hp, hread⟩
  obtain ⟨p, r, r', rfl, hread⟩ := hread
  obtain ⟨hlo, hhi, hall⟩ := hread.of_between_one
  obtain ⟨n, hn, hnumber, hlt⟩ := number_of_isNumeral (isNumeral_of_digits hall hlo (by omega))
  have hpow : 10 ^ u.length ≤ 10 ^ 2 := Nat.pow_le_pow_right (by decide) hhi
  exact ⟨n, hn, hnumber, by omega⟩

/-- Nothing that looks like a date makes its reading fail. -/
theorem attempt_eq (t : Text) : attempt t = .ok (read? t) := by
  unfold attempt read?
  cases hm : pattern.match? (Text.trim t) with
  | none => rfl
  | some m =>
    obtain ⟨month, hmonth, hn⟩ := month_of_match hm
    obtain ⟨year, y, hyear, hy, hynumber, hyle⟩ := year_of_match hm
    have hday : ∃ day, (m.group? 1 <|> m.group? 3).mapM number = .ok day ∧
        (m.group? 1 <|> m.group? 3).bind Text.integer? = day ∧ ∀ d, day = some d → 0 ≤ d ∧ d ≤ 99 := by
      cases hu : (m.group? 1 <|> m.group? 3) with
      | none => exact ⟨none, rfl, rfl, by simp⟩
      | some u =>
        obtain ⟨n, hn, hnumber, hle⟩ := day_of_match hm hu
        refine ⟨some n, ?_, hn, ?_⟩
        · simp [hnumber, Functor.map, Except.map]
        · intro d hd
          obtain rfl := Option.some.inj hd
          omega
    obtain ⟨day, hdays, hbind, hbounds⟩ := hday
    have hwritten : Bounded ⟨day, month, y⟩ :=
      ⟨hn, ⟨Int.natCast_nonneg y, Int.ofNat_le.mpr hyle⟩, hbounds⟩
    obtain ⟨d, hd⟩ := hwritten.date
    simp only [hmonth, hyear, hbind, hy, hd, Option.bind_eq_bind, Option.bind_some, Option.getD_some]
    simp only [hdays, hynumber, hd, bind, Except.bind, pure, Except.pure]
    cases d <;> rfl

theorem exists_date_of_read? {w : WrittenDate} (h : read? t = some w) : ∃ d, w.date = .ok (some d) := by
  unfold read? at h
  simp only [Option.bind_eq_bind, Option.bind_eq_some_iff] at h
  obtain ⟨m, -, month, -, year, -, hw⟩ := h
  split at hw
  · rename_i d hd
    obtain rfl := Option.some.inj hw
    exact ⟨d, hd⟩
  · cases hw

end Read

section Shape

open Pattern

variable {t : Text}

theorem pattern_eq : pattern = .seq textStart (.seq
    (maybe (.seq (.group 1 (Pattern.between 1 1 (one CharSet.digit.ignoreCase))) (one CharSet.blank.ignoreCase)))
    (.seq (.group 2 (atLeast 3 (one CharSet.lower.ignoreCase))) (.seq (maybe (one (CharSet.only '.').ignoreCase))
      (.seq (one CharSet.blank.ignoreCase) (.seq
        (maybe (.seq (.group 3 (Pattern.between 1 1 (one CharSet.digit.ignoreCase)))
          (.seq (one (CharSet.only ',').ignoreCase) (one CharSet.blank.ignoreCase))))
        (.seq (.group 4 (times 4 (one CharSet.digit.ignoreCase))) lineEnd)))))) :=
  rfl

/-- What stands around the month. -/
def Around (c : Char) : Prop :=
  Text.isBlank c ∨ CharSet.digit.ignoreCase c ∨ c = '.' ∨ c = ','

/-- All letters of the text stand side by side, and it has a digit. -/
def HasMonth (t : Text) : Prop :=
  ∃ before month after, t = before ++ (month ++ after) ∧ (∀ c ∈ before, Around c) ∧
    (∀ c ∈ month, CharSet.lower.ignoreCase c) ∧ (∀ c ∈ after, Around c) ∧ ∃ c ∈ after, CharSet.digit.ignoreCase c

/-- Blanks at the ends make no difference. -/
theorem HasMonth.of_trim (h : HasMonth (Text.trim t)) : HasMonth t := by
  obtain ⟨before, month, after, htrim, hbefore, hmonth, hafter, c, hc, hdigit⟩ := h
  obtain ⟨b, b', hb, hb', ht⟩ := Text.exists_blanks_around t
  refine ⟨b ++ before, month, after ++ b', ?_, ?_, hmonth, ?_, c, List.mem_append_left b' hc, hdigit⟩
  · rw [ht, htrim]
    simp only [List.append_assoc]
  · exact List.forall_mem_append.mpr ⟨fun d hd => .inl (hb d hd), hbefore⟩
  · exact List.forall_mem_append.mpr ⟨hafter, fun d hd => .inl (hb' d hd)⟩

end Shape

end WrittenDate

end Calendar

end DraftLint
