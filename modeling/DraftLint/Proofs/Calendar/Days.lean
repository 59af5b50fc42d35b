import DraftLint.Proofs.Calendar

/-!
# Days in turn

The position of a day is the number of days up to it: the first day has the first position, and every other day comes
directly after the day with the position before.  So the distance between two dates is the number of days from the one
to the other.
-/

namespace DraftLint.Date

open Calendar

/-- The first day of the calendar. -/
def first : Date :=
  ⟨1, 1, 1, by decide⟩

/-- The day after: the next one of the month, else the first of the next month, else the first of the next year.  The
last day of the calendar has none. -/
def next? (d : Date) : Option Date :=
  (of? d.year d.month (d.day + 1)).or ((of? d.year (d.month + 1) 1).or (of? (d.year + 1) 1 1))

/-- The day so many days later. -/
def later? (d : Date) : Nat → Option Date
  | 0 => some d
  | n + 1 => (d.later? n).bind next?

section Next

variable {d e : Date}

theorem of?_eq_none_iff {year month day : Nat} :
    of? (year : Int) month day = none ↔ ¬IsDay year month day := by
  rw [Option.eq_none_iff_forall_ne_some]
  constructor
  · intro h hday
    exact h ⟨year, month, day, hday⟩ (of?_eq_some_iff.mpr ⟨rfl, rfl, rfl⟩)
  · rintro h x hx
    obtain ⟨hyear, hmonth, hday⟩ := of?_eq_some_iff.mp hx
    obtain rfl : year = x.year := by omega
    obtain rfl : month = x.month := by omega
    obtain rfl : day = x.day := by omega
    exact h x.isDay

/-- A day is followed by the next one of its month, or is the last of the month. -/
theorem next?_eq_some_iff : d.next? = some e ↔
    e.year = d.year ∧ e.month = d.month ∧ e.day = d.day + 1 ∨
      d.day = daysInMonth d.year d.month ∧ e.day = 1 ∧
        (e.year = d.year ∧ e.month = d.month + 1 ∨ d.month = 12 ∧ e.year = d.year + 1 ∧ e.month = 1) := by
  have hd := d.isDay
  have he := e.isDay
  have hle := daysInMonth_le d.year (d.month + 1)
  simp only [IsDay] at hd he
  have hday : of? d.year d.month (d.day + 1) = none ↔ d.day = daysInMonth d.year d.month := by
    have hnone := @of?_eq_none_iff d.year d.month (d.day + 1)
    simp only [IsDay, Int.natCast_add, Int.cast_ofNat_Int] at hnone
    rw [hnone]
    omega
  have hmonth : of? d.year (d.month + 1) 1 = none ↔ d.month = 12 := by
    have hnone := @of?_eq_none_iff d.year (d.month + 1) 1
    simp only [IsDay, Int.natCast_add, Int.cast_ofNat_Int] at hnone
    rw [hnone]
    omega
  rw [next?, Option.or_eq_some_iff, Option.or_eq_some_iff, hday, hmonth, of?_eq_some_iff, of?_eq_some_iff,
    of?_eq_some_iff]
  omega

/-- There is a leap day for every multiple of 4, except for those of 100 that are not of 400. -/
theorem leapDay_add (year : Nat) :
    ((if isLeap year then 1 else 0) + if 100 ∣ year then 1 else 0) =
      (if 4 ∣ year then 1 else 0) + if 400 ∣ year then 1 else 0 := by
  have hcentury : 400 ∣ year → 100 ∣ year := Nat.dvd_trans (by decide)
  have hfour : 100 ∣ year → 4 ∣ year := Nat.dvd_trans (by decide)
  simp only [isLeap, Nat.dvd_iff_mod_eq_zero, Bool.and_eq_true, Bool.or_eq_true, beq_iff_eq, bne_iff_ne] at *
  grind

theorem daysBeforeYear_succ {year : Nat} (h : 1 ≤ year) :
    daysBeforeYear (year + 1) = daysBeforeYear year + if isLeap year then 366 else 365 := by
  obtain ⟨y, rfl⟩ := Nat.exists_eq_add_of_le' h
  have hleap := leapDay_add (y + 1)
  have hlength : (if isLeap (y + 1) then 366 else 365) = 365 + if isLeap (y + 1) then 1 else 0 := by
    split_ifs <;> rfl
  have hle : y / 100 ≤ y := Nat.div_le_self y 100
  have hone : (if 100 ∣ y + 1 then 1 else 0) ≤ 1 := by
    split_ifs <;> decide
  rw [hlength]
  simp only [daysBeforeYear, Nat.add_sub_cancel, Nat.succ_div]
  omega

theorem daysBeforeMonth_succ (year : Nat) {month : Nat} (h : 1 ≤ month) :
    daysBeforeMonth year (month + 1) = daysBeforeMonth year month + daysInMonth year month := by
  obtain ⟨month, rfl⟩ := Nat.exists_eq_add_of_le' h
  rfl

theorem daysBeforeMonth_thirteen (year : Nat) : daysBeforeMonth year 13 = if isLeap year then 366 else 365 := by
  cases h : isLeap year <;> simp [daysBeforeMonth, daysInMonth, h]

/-- The position goes up by one from a day to the next. -/
theorem ordinal_next (h : d.next? = some e) : e.ordinal = d.ordinal + 1 := by
  obtain ⟨hyear, hmonth, -⟩ := d.isDay
  rw [ordinal, ordinal]
  rcases next?_eq_some_iff.mp h with ⟨hy, hm, hday⟩ | ⟨hlast, hday, ⟨hy, hm⟩ | ⟨htwelve, hy, hm⟩⟩
  · rw [hy, hm, hday]
    omega
  · rw [hy, hm, hday, hlast, daysBeforeMonth_succ d.year hmonth.1]
    omega
  · have hall := daysBeforeMonth_succ d.year hmonth.1
    rw [htwelve, daysBeforeMonth_thirteen] at hall
    rw [hy, hm, hday, hlast, htwelve, daysBeforeYear_succ hyear.1]
    change _ + 0 + 1 = _
    omega

/-- Every day but the first comes after another one. -/
theorem exists_next?_eq_some (h : e ≠ first) : ∃ d : Date, d.next? = some e := by
  obtain ⟨year, month, day, hvalid⟩ := e
  obtain ⟨hyear, hmonth, hday⟩ := hvalid
  simp only [next?_eq_some_iff]
  by_cases hone : day = 1
  · subst hone
    by_cases hjanuary : month = 1
    · subst hjanuary
      have hlater : 1 < year := by
        refine Nat.lt_of_le_of_ne hyear.1 ?_
        rintro rfl
        exact h rfl
      refine ⟨⟨year - 1, 12, 31, by omega, by decide, by decide, Nat.le_refl 31⟩, .inr ⟨rfl, rfl, .inr ⟨rfl, ?_, rfl⟩⟩⟩
      exact (Nat.sub_add_cancel hyear.1).symm
    · have hlength := daysInMonth_le year (month - 1)
      refine ⟨⟨year, month - 1, daysInMonth year (month - 1), hyear, by omega, by omega, Nat.le_refl _⟩,
        .inr ⟨rfl, rfl, .inl ⟨rfl, ?_⟩⟩⟩
      exact (Nat.sub_add_cancel hmonth.1).symm
  · exact ⟨⟨year, month, day - 1, hyear, hmonth, by omega, by omega⟩,
      .inl ⟨rfl, rfl, (Nat.sub_add_cancel hday.1).symm⟩⟩

end Next

section Later

variable {d e : Date} {n : Nat}

theorem later?_add (d : Date) (m n : Nat) : d.later? (m + n) = (d.later? m).bind fun e => e.later? n := by
  induction n with
  | zero => exact (Option.bind_fun_some _).symm
  | succ n ih =>
    rw [← Nat.add_assoc, later?, ih, Option.bind_assoc]
    rfl

/-- A day that comes so many days later has its position as much further on. -/
theorem ordinal_later (h : d.later? n = some e) : e.ordinal = d.ordinal + n := by
  induction n generalizing e with
  | zero =>
    obtain rfl := Option.some.inj h
    rfl
  | succ n ih =>
    obtain ⟨x, hx, hnext⟩ := Option.bind_eq_some_iff.mp h
    rw [ordinal_next hnext, ih hx, Nat.add_assoc]

/-- From the first day all others are reached. -/
theorem exists_later_first (e : Date) : ∃ n, first.later? n = some e := by
  induction hn : e.ordinal using Nat.strong_induction_on generalizing e with
  | _ k ih =>
    by_cases hfirst : e = first
    · exact ⟨0, congrArg some hfirst.symm⟩
    · obtain ⟨d, hd⟩ := exists_next?_eq_some hfirst
      have hlt : d.ordinal < k := by
        rw [← hn, ordinal_next hd]
        exact Nat.lt_succ_self _
      obtain ⟨n, hlater⟩ := ih d.ordinal hlt d rfl
      exact ⟨n + 1, by rw [later?, hlater, Option.bind_some, hd]⟩

/-- The number of days from one day to another is the difference of their positions. -/
theorem later?_eq_some_iff : d.later? n = some e ↔ e.ordinal = d.ordinal + n := by
  refine ⟨ordinal_later, fun h => ?_⟩
  obtain ⟨i, hi⟩ := exists_later_first d
  obtain ⟨j, hj⟩ := exists_later_first e
  have hsame : j = i + n := by
    have hd := ordinal_later hi
    have he := ordinal_later hj
    omega
  rwa [hsame, later?_add, hi, Option.bind_some] at hj

theorem daysFrom_eq_iff : e.daysFrom d = n ↔ d.later? n = some e := by
  rw [daysFrom, later?_eq_some_iff]
  omega

theorem daysFrom_eq_neg (d e : Date) : d.daysFrom e = -e.daysFrom d := by
  rw [daysFrom, daysFrom]
  omega

end Later

end DraftLint.Date
