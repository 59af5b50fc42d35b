import DraftLint.Proofs.Calendar.Days
import DraftLint.Proofs.Grading
import DraftLint.Proofs.Rules.Dates

/-!
# Dates that are completed

A date of which parts are not given is completed from today, and the rule on dates tells how far from today it is.  The
completion replaces a zero like a part that is not given.  So what is given is kept exactly if no part is zero, or if
there is no day either way.
-/

namespace DraftLint

namespace Date

/-- The day has the parts that are given.  The others are today's as far as the day so far is today's, and else January
and the fifteenth. -/
structure Fills (today : Date) (year month day : Option Int) (x : Date) : Prop where
  year_eq : (x.year : Int) = year.getD today.year
  month_eq : (x.month : Int) = month.getD (if x.year = today.year then today.month else 1)
  day_eq : (x.day : Int) = day.getD (if x.year = today.year ∧ x.month = today.month then today.day else 15)

/-- The completion keeps whatever is given: it comes to the day that fills in the rest, or to none if there is no such
day. -/
structure KeepsGiven (today : Date) (year month day : Option Int) : Prop where
  some_iff : ∀ x, complete today year month day = .ok (some x) ↔ Fills today year month day x
  none_iff : complete today year month day = .ok none ↔ ∀ x, ¬Fills today year month day x

section Complete

variable {today x : Date} {year month day : Option Int}

/-- A zero is replaced like a part that is not given. -/
theorem completes_iff_fills :
    Completes today year month day x ↔
      Fills today (year.filter (· ≠ 0)) (month.filter (· ≠ 0)) (day.filter (· ≠ 0)) x := by
  constructor
  · rintro ⟨hyear, hmonth, hday⟩
    simp only [Int.natCast_inj] at hmonth hday
    exact ⟨hyear, hmonth, hday⟩
  · rintro ⟨hyear, hmonth, hday⟩
    simp only [← Int.natCast_inj] at hmonth hday
    exact ⟨hyear, hmonth, hday⟩

theorem complete_eq_some_iff_fills :
    complete today year month day = .ok (some x) ↔
      Fills today (year.filter (· ≠ 0)) (month.filter (· ≠ 0)) (day.filter (· ≠ 0)) x :=
  complete_eq_some_iff.trans completes_iff_fills

/-- Within 32 bits the completion does not fail. -/
theorem exists_complete_of_fits (today : Date) (h : Fits year month day) :
    ∃ o, complete today year month day = .ok o := by
  cases hc : complete today year month day with
  | ok o => exact ⟨o, rfl⟩
  | error e => exact absurd h (complete_eq_error_iff.mp hc).2

theorem complete_eq_none_iff (today : Date) (h : Fits year month day) :
    complete today year month day = .ok none ↔
      ∀ x, ¬Fills today (year.filter (· ≠ 0)) (month.filter (· ≠ 0)) (day.filter (· ≠ 0)) x := by
  obtain ⟨o, ho⟩ := exists_complete_of_fits today h
  simp only [← complete_eq_some_iff_fills, ho, Except.ok.injEq]
  exact Option.eq_none_iff_forall_ne_some

/-- No part of a day is zero. -/
theorem Fills.ne_zero (h : Fills today year month day x) : year ≠ some 0 ∧ month ≠ some 0 ∧ day ≠ some 0 := by
  obtain ⟨hyear, hmonth, hday⟩ := x.isDay
  refine ⟨?_, ?_, ?_⟩
  · rintro rfl
    have hzero : (x.year : Int) = 0 := h.year_eq
    omega
  · rintro rfl
    have hzero : (x.month : Int) = 0 := h.month_eq
    omega
  · rintro rfl
    have hzero : (x.day : Int) = 0 := h.day_eq
    omega

/-- What is given is kept exactly if no part is zero, or if there is no day even with zeros replaced. -/
theorem keepsGiven_iff (h : Fits year month day) :
    KeepsGiven today year month day ↔
      year ≠ some 0 ∧ month ≠ some 0 ∧ day ≠ some 0 ∨ complete today year month day = .ok none := by
  constructor
  · intro hkeeps
    by_cases hzero : year ≠ some 0 ∧ month ≠ some 0 ∧ day ≠ some 0
    · exact .inl hzero
    · exact .inr (hkeeps.none_iff.mpr fun x hx => hzero hx.ne_zero)
  · rintro (⟨hyear, hmonth, hday⟩ | hnone)
    · have hsome := fun x => @complete_eq_some_iff_fills today x year month day
      have hnone := complete_eq_none_iff today h
      rw [filter_ne_eq_self hyear, filter_ne_eq_self hmonth, filter_ne_eq_self hday] at hsome hnone
      exact ⟨hsome, hnone⟩
    · have hno := (complete_eq_none_iff today h).mp hnone
      have hnot : ∀ x, ¬Fills today year month day x := fun x hx => hno x (by
        obtain ⟨hyear, hmonth, hday⟩ := hx.ne_zero
        rwa [filter_ne_eq_self hyear, filter_ne_eq_self hmonth, filter_ne_eq_self hday])
      exact ⟨fun x => iff_of_false (by rw [hnone]; exact fun heq => by cases heq) (hnot x),
        iff_of_true hnone hnot⟩

/-- Without a day, a year and a month that there are can be completed. -/
theorem exists_complete_of_no_day (hyear : ∀ n ∈ year, 1 ≤ n ∧ n ≤ 9999) (hmonth : ∀ n ∈ month, 1 ≤ n ∧ n ≤ 12) :
    ∃ x, complete today year month none = .ok (some x) := by
  obtain ⟨hy, hm, hd⟩ := today.isDay
  have hyear' : year ≠ some 0 := fun h => absurd (hyear 0 h).1 (by decide)
  have hmonth' : month ≠ some 0 := fun h => absurd (hmonth 0 h).1 (by decide)
  simp only [complete_eq_some_iff_fills, filter_ne_eq_self hyear', filter_ne_eq_self hmonth']
  -- The year and the month that there are after all.
  have hyears : ∃ y : Nat, (y : Int) = year.getD today.year ∧ 1 ≤ y ∧ y ≤ 9999 := by
    cases year with
    | none => exact ⟨today.year, rfl, hy⟩
    | some n =>
      have hn := hyear n rfl
      exact ⟨n.toNat, Int.toNat_of_nonneg (by omega), by omega, by omega⟩
  obtain ⟨y, hy, hybounds⟩ := hyears
  have hmonths : ∃ k : Nat, (k : Int) = month.getD (if y = today.year then today.month else 1) ∧ 1 ≤ k ∧ k ≤ 12 := by
    cases month with
    | none =>
      refine ⟨if y = today.year then today.month else 1, ?_, ?_⟩
      · rw [Option.getD_none]
        split_ifs <;> rfl
      · split_ifs
        · exact hm
        · decide
    | some n =>
      have hn := hmonth n rfl
      exact ⟨n.toNat, Int.toNat_of_nonneg (by omega), by omega, by omega⟩
  obtain ⟨k, hk, hkbounds⟩ := hmonths
  by_cases hsame : y = today.year ∧ k = today.month
  · refine ⟨⟨y, k, today.day, hybounds, hkbounds, ?_⟩, hy, hk, ?_⟩
    · rwa [hsame.1, hsame.2]
    · rw [if_pos hsame]
      rfl
  · refine ⟨⟨y, k, 15, hybounds, hkbounds, by decide, ?_⟩, hy, hk, ?_⟩
    · exact Nat.le_trans (by decide) (daysInMonth_le y k).1
    · rw [if_neg hsame]
      rfl

end Complete

end Date

namespace Rules

open Finding Issue

/-- The year, the month and the day that a document gives, as far as it gives them; nothing if it has no date or what it
gives is no number. -/
def given? : Document → Except Failure (Option (Option Int × Option Int × Option Int))
  | .text d => match d.scan.page.header.date with
    | none => .ok none
    | some w => (Calendar.monthNumber w.month).map fun month =>
      month.map fun (n : Nat) => (some w.year, some (n : Int), w.day)
  | .markup d => match dateElement? d.root with
    | none => .ok none
    | some e => match numberIn e "year", monthIn e, numberIn e "day" with
      | .ok year, .ok month, .ok day => .ok (some (year, month, day))
      | _, _, _ => .ok none

/-- The date that a document has after all: what it gives, completed. -/
def completed? (today : Date) (d : Document) : Except Failure (Option Date) := do
  match ← given? d with
  | none => return none
  | some (year, month, day) => Date.complete today year month day

/-- Where the date of a document is, if that is known. -/
def datePlaces? : Document → Option (List Place)
  | .text _ => none
  | .markup d => (dateElement? d.root).map fun e => [⟨e.line, none⟩]

/-- A nit about the date, which is a warning in every mode. -/
def dateNit (i : Issue) (places : Option (List Place)) : Nit where
  severity := .warning
  code := i.code
  message := i.message
  reference := i.reference?
  places := places

/-- What is reported of the date that a document has after all: that it is missing, or in the past, or in the future by
more than three days, or nothing. -/
inductive DateReport (today : Date) (places : Option (List Place)) : Option Date → List Nit → Prop
  | missing : DateReport today places none [dateNit missingDate places]
  | past {x : Date} {n : Nat} (hfar : 3 < n) (h : x.later? n = some today) :
      DateReport today places (some x) [dateNit (dateInPast n) places]
  | future {x : Date} {n : Nat} (hfar : 3 < n) (h : today.later? n = some x) :
      DateReport today places (some x) [dateNit (dateInFuture n) places]
  | near {x : Date} {n : Nat} (hnear : n ≤ 3) (h : x.later? n = some today ∨ today.later? n = some x) :
      DateReport today places (some x) []

section Report

variable {today x : Date} {s : Standard} {d : Document} {places : Option (List Place)} {ns : List Nit} {m : Mode}

theorem nit?_date {i : Issue} (hi : i.gravity = .always .warning) (m : Mode) :
    (⟨i, places⟩ : Finding).nit? m = some (dateNit i places) := by
  rw [Finding.nit?, Nit.graded?, hi]
  cases m <;> rfl

/-- Which of the reports it is depends on the distance from today. -/
theorem dateReport_some_iff : DateReport today places (some x) ns ↔
    ns = if x.daysFrom today < -3 then [dateNit (dateInPast (-x.daysFrom today).toNat) places]
      else if 3 < x.daysFrom today then [dateNit (dateInFuture (x.daysFrom today).toNat) places] else [] := by
  have hpast : ∀ {n : Nat}, x.later? n = some today → x.daysFrom today = -n := fun h => by
    rw [Date.daysFrom_eq_neg, Date.daysFrom_eq_iff.mpr h]
  have hfuture : ∀ {n : Nat}, today.later? n = some x → x.daysFrom today = n := fun h =>
    Date.daysFrom_eq_iff.mpr h
  constructor
  · intro h
    cases h with
    | @past _ n hfar h => rw [hpast h, if_pos (by omega), Int.neg_neg, Int.toNat_natCast]
    | @future _ n hfar h => rw [hfuture h, if_neg (by omega), if_pos (by omega), Int.toNat_natCast]
    | @near _ n hnear h =>
      rcases h with h | h
      · rw [hpast h, if_neg (by omega), if_neg (by omega)]
      · rw [hfuture h, if_neg (by omega), if_neg (by omega)]
  · rintro rfl
    rcases Int.le_total 0 (x.daysFrom today) with hle | hle
    · have hlater := Date.daysFrom_eq_iff.mp (Int.toNat_of_nonneg hle).symm
      rw [if_neg (by omega)]
      split_ifs with hfar
      · exact .future (by omega) hlater
      · exact .near (by omega) (.inr hlater)
    · have hback : today.daysFrom x = ((-x.daysFrom today).toNat : Nat) := by
        rw [Date.daysFrom_eq_neg]
        omega
      have hlater := Date.daysFrom_eq_iff.mp hback
      split_ifs with hfar hfar'
      · exact .past (by omega) hlater
      · omega
      · exact .near (by omega) (.inl hlater)

theorem nits_nearToday (today x : Date) (places : Option (List Place)) (m : Mode) :
    DateReport today places (some x) ((nearToday today x fun i => ⟨i, places⟩).filterMap (nit? m)) := by
  rw [dateReport_some_iff, nearToday, tolerance]
  split_ifs with hpast hfuture
  · rw [List.filterMap_cons, nit?_date rfl]
    rfl
  · rw [List.filterMap_cons, nit?_date rfl]
    rfl
  · rfl

/-- Plain text has the date that the rule looks at. -/
theorem plainDate?_eq (d : Plain.Document) : plainDate? today d = completed? today (.text d) := by
  unfold plainDate? completed? given?
  dsimp only
  cases d.scan.page.header.date with
  | none => rfl
  | some w =>
    dsimp only
    cases Calendar.monthNumber w.month with
    | error f => rfl
    | ok month => cases month <;> rfl

theorem elementDate?_eq {e : Markup.Element} {d : Markup.Document} (he : dateElement? d.root = some e) :
    elementDate? today e = completed? today (.markup d) := by
  unfold elementDate? elementDate completed? given?
  dsimp only
  rw [he]
  dsimp only
  cases hyear : numberIn e "year" with
  | error f =>
    rw [numberIn_eq_error hyear]
    rfl
  | ok year =>
    cases hmonth : monthIn e with
    | error f =>
      rw [monthIn_eq_error hmonth]
      rfl
    | ok month =>
      cases hday : numberIn e "day" with
      | error f =>
        rw [numberIn_eq_error hday]
        rfl
      | ok day =>
        simp only [bind, Except.bind]
        split
        · rename_i h
          exact absurd (Date.complete_eq_error_iff.mp h).1 (by decide)
        · rfl

/-- The rule reports on the date that the document has after all. -/
theorem nits_date {o : Option Date} (h : completed? s.today d = .ok o) (m : Mode) :
    ∃ ns, (date s d).nits m = .ok ns ∧ DateReport s.today (datePlaces? d) o ns := by
  have hmissing : ∀ places,
      DateReport s.today places none ([(⟨missingDate, places⟩ : Finding)].filterMap (nit? m)) := by
    intro places
    rw [List.filterMap_cons, nit?_date rfl]
    exact .missing
  cases d with
  | text d =>
    rw [date, plainDate?_eq, h]
    cases o with
    | none => exact ⟨_, rfl, hmissing none⟩
    | some x => exact ⟨_, rfl, nits_nearToday s.today x none m⟩
  | markup d =>
    rw [date, datePlaces?]
    cases he : dateElement? d.root with
    | none =>
      have hnone : completed? s.today (.markup d) = .ok none := by
        rw [completed?, given?, he]
        rfl
      rw [hnone] at h
      obtain rfl := Except.ok.inj h
      exact ⟨_, rfl, hmissing none⟩
    | some e =>
      dsimp only
      rw [elementDate?_eq he, h]
      cases o with
      | none => exact ⟨_, rfl, hmissing _⟩
      | some x => exact ⟨_, rfl, nits_nearToday s.today x _ m⟩

/-- There is exactly one report on a date. -/
theorem DateReport.unique {o : Option Date} {ns' : List Nit} (h : DateReport today places o ns)
    (h' : DateReport today places o ns') : ns = ns' := by
  cases o with
  | none =>
    cases h
    cases h'
    rfl
  | some x => rw [dateReport_some_iff.mp h, dateReport_some_iff.mp h']

/-- What plain text gives can be read, since it is looked for as a date. -/
theorem exists_given?_ofText (fileName : Option Text) (t : Text) :
    ∃ g, given? (.text (.ofText fileName t)) = .ok g := by
  rw [given?]
  cases hdate : (Plain.Document.ofText fileName t).scan.page.header.date with
  | none => exact ⟨none, rfl⟩
  | some w =>
    obtain ⟨month, -, hmonth, -⟩ := Plain.Document.exists_complete_ofText hdate Date.first
    dsimp only
    rw [hmonth]
    exact ⟨_, rfl⟩

theorem exists_given?_markup (d : Markup.Document) : ∃ g, given? (.markup d) = .ok g := by
  rw [given?]
  split
  · exact ⟨none, rfl⟩
  · split
    · exact ⟨_, rfl⟩
    · exact ⟨none, rfl⟩

end Report

/-- Parts of at most 32 bits are completed, which comes to a day exactly if with zeros taken as missing it fills in the
rest.  So whatever is given is kept exactly if no part is zero or no day comes of it.  A year and a month that there are
have a day.  Of a document that gives these parts, or none, the rule reports that the completed date is missing, past or
in the future, or nothing, by the days from it to today. -/
theorem keepsGiven_complete (today : Date) (year month day : Option Int) (h : Date.Fits year month day) :
    (∃ o, Date.complete today year month day = .ok o ∧
      ∀ x, o = some x ↔
        Date.Fills today (year.filter (· ≠ 0)) (month.filter (· ≠ 0)) (day.filter (· ≠ 0)) x) ∧
    (Date.KeepsGiven today year month day ↔
      year ≠ some 0 ∧ month ≠ some 0 ∧ day ≠ some 0 ∨ Date.complete today year month day = .ok none) ∧
    (day = none → (∀ n ∈ year, 1 ≤ n ∧ n ≤ 9999) → (∀ n ∈ month, 1 ≤ n ∧ n ≤ 12) →
      ∃ x, Date.complete today year month day = .ok (some x)) ∧
    ∀ (s : Standard) (d : Document) (m : Mode), s.today = today →
      (∀ p, d = .text p → ∃ fileName t, p = Plain.Document.ofText fileName t) →
      ∃ g, given? d = .ok g ∧ (g = none ∨ g = some (year, month, day) →
        ∃ o ns, completed? today d = .ok o ∧ (date s d).nits m = .ok ns ∧
          ∀ ns', DateReport today (datePlaces? d) o ns' ↔ ns' = ns) := by
  obtain ⟨o, ho⟩ := Date.exists_complete_of_fits today h
  refine ⟨⟨o, ho, fun x => ?_⟩, Date.keepsGiven_iff h, ?_, ?_⟩
  · rw [← Date.complete_eq_some_iff_fills, ho, Except.ok.injEq]
  · rintro rfl hyear hmonth
    exact Date.exists_complete_of_no_day hyear hmonth
  · rintro s d m rfl hread
    have hgiven : ∃ g, given? d = .ok g := by
      cases d with
      | text p =>
        obtain ⟨fileName, t, rfl⟩ := hread p rfl
        exact exists_given?_ofText fileName t
      | markup d => exact exists_given?_markup d
    obtain ⟨g, hg⟩ := hgiven
    refine ⟨g, hg, fun hparts => ?_⟩
    have hcompleted : ∃ o, completed? s.today d = .ok o := by
      rw [completed?, hg]
      rcases hparts with rfl | rfl
      · exact ⟨none, rfl⟩
      · exact ⟨o, ho⟩
    obtain ⟨o, hcompleted⟩ := hcompleted
    obtain ⟨ns, hns, hreport⟩ := nits_date hcompleted m
    exact ⟨o, ns, hcompleted, hns, fun ns' => ⟨fun h' => h'.unique hreport, fun heq => heq ▸ hreport⟩⟩

/-- Markup with a year and a month. -/
def datedDocument : Markup.Document where
  fileName := none
  root := ⟨⟨"rfc".toList, 1, []⟩, [.element ⟨"front".toList, 1, []⟩
    [.element ⟨"date".toList, 2, [("year".toList, "2023".toList), ("month".toList, "Jul".toList)]⟩ []]]⟩
  entities := []
  kind := .unknown

/-- The middle of July, which was 233 days ago. -/
theorem keepsGiven_complete_july :
    Date.Fits (some 2023) (some 7) none ∧
    Date.KeepsGiven ⟨2024, 3, 4, by decide⟩ (some 2023) (some 7) none ∧
    Date.complete ⟨2024, 3, 4, by decide⟩ (some 2023) (some 7) none = .ok (some ⟨2023, 7, 15, by decide⟩) ∧
    given? (.markup datedDocument) = .ok (some (some 2023, some 7, none)) ∧
    DateReport ⟨2024, 3, 4, by decide⟩ (some [⟨2, none⟩]) (some ⟨2023, 7, 15, by decide⟩)
      [dateNit (dateInPast 233) (some [⟨2, none⟩])] := by
  have hfits : Date.Fits (some 2023) (some 7) none := by
    rintro n (h | h | h)
    · obtain rfl := Option.some.inj h
      rfl
    · obtain rfl := Option.some.inj h
      rfl
    · cases h
  obtain ⟨-, hkeeps, -, hnits⟩ := keepsGiven_complete ⟨2024, 3, 4, by decide⟩ (some 2023) (some 7) none hfits
  have hgiven : given? (.markup datedDocument) = .ok (some (some 2023, some 7, none)) := by decide +kernel
  have hcompleted : completed? ⟨2024, 3, 4, by decide⟩ (.markup datedDocument) =
      .ok (some ⟨2023, 7, 15, by decide⟩) := by decide +kernel
  have hreport : (date ⟨⟨2024, 3, 4, by decide⟩, none⟩ (.markup datedDocument)).nits .normal =
      .ok [dateNit (dateInPast 233) (some [⟨2, none⟩])] := by decide +kernel
  have hmarkup : ∀ p, Document.markup datedDocument = .text p →
      ∃ fileName t, p = Plain.Document.ofText fileName t := fun _ h => Document.noConfusion h
  obtain ⟨g, hg, htells⟩ := hnits ⟨⟨2024, 3, 4, by decide⟩, none⟩ (.markup datedDocument) .normal rfl hmarkup
  have hparts := Except.ok.inj (hg.symm.trans hgiven)
  obtain ⟨o, ns, ho, hns, hiff⟩ := htells (.inr hparts)
  rw [Except.ok.inj (ho.symm.trans hcompleted)] at hiff
  have htold := (hiff ns).mpr rfl
  rw [Except.ok.inj (hns.symm.trans hreport)] at htold
  exact ⟨hfits, hkeeps.mpr (.inl (by decide)), rfl, hgiven, htold⟩

/-- A day that is given as zero is replaced by today. -/
theorem not_keepsGiven : ¬Date.KeepsGiven ⟨2024, 3, 4, by decide⟩ (some 2024) (some 3) (some 0) := by
  intro h
  have hcomplete : Date.complete ⟨2024, 3, 4, by decide⟩ (some 2024) (some 3) (some 0) =
      .ok (some ⟨2024, 3, 4, by decide⟩) := rfl
  have hday := ((h.some_iff _).mp hcomplete).day_eq
  exact absurd hday (by decide)

end Rules
end DraftLint
