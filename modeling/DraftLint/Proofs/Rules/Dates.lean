import DraftLint.Proofs.Plain.FrontPage
import DraftLint.Rules.Dates

/-!
# The date of a document

What the rule on dates comes to.  The date of plain text is always there in full.  The one of markup is
given by attributes, which may hold anything: what is no numeral or names no day gives no date, and what is
no month is passed over, but a year or a day that needs more than 32 bits is a failure.
-/

namespace DraftLint

namespace Date

open Calendar

/-- The parts that are made up for, where a zero counts as missing. -/
structure Completes (today : Date) (year month day : Option Int) (x : Date) : Prop where
  year_eq : (x.year : Int) = (year.filter (· ≠ 0)).getD today.year
  month_eq : (x.month : Int) =
    (month.filter (· ≠ 0)).getD (if (x.year : Int) = today.year then today.month else 1)
  day_eq : (x.day : Int) =
    (day.filter (· ≠ 0)).getD
      (if (x.year : Int) = today.year ∧ (x.month : Int) = today.month then today.day else 15)

theorem complete_eq_some_iff {today : Date} {year month day : Option Int} {x : Date} :
    complete today year month day = .ok (some x) ↔ Completes today year month day x := by
  unfold complete
  simp only [ofParts_eq_some_iff]
  constructor
  · rintro ⟨hyear, hmonth, hday⟩
    rw [hyear] at hmonth hday
    rw [hmonth] at hday
    exact ⟨hyear.symm, hmonth.symm, hday.symm⟩
  · rintro ⟨hyear, hmonth, hday⟩
    rw [← hyear, ← hmonth, ← hday]
    exact ⟨rfl, rfl, rfl⟩

theorem inWord_getD {n : Option Int} {k : Int} (hk : inWord k = true) :
    inWord ((n.filter (· ≠ 0)).getD k) = true ↔ ∀ i, n = some i → inWord i = true := by
  cases n with
  | none => simpa using hk
  | some i =>
    simp only [Option.some.injEq, forall_eq']
    by_cases hi : i = 0
    · subst hi
      rw [Option.filter_some, if_neg (by simp), Option.getD_none, hk]
      simp [inWord]
    · rw [Option.filter_some, if_pos (by simpa using hi), Option.getD_some]

/-- No part that is given needs more than 32 bits. -/
def Fits (year month day : Option Int) : Prop :=
  ∀ n, year = some n ∨ month = some n ∨ day = some n → inWord n = true

theorem complete_eq_error_iff {today : Date} {year month day : Option Int} {e : Failure} :
    complete today year month day = .error e ↔ e = .partTooLarge ∧ ¬Fits year month day := by
  obtain ⟨hyear, hmonth, hday⟩ := inWord_parts today
  unfold complete ofParts
  dsimp only
  generalize hy : (year.filter (· ≠ 0)).getD today.year = y
  generalize hm : (month.filter (· ≠ 0)).getD (if y = today.year then today.month else 1) = m
  generalize hd : (day.filter (· ≠ 0)).getD
    (if y = today.year ∧ m = today.month then today.day else 15) = d
  have hwords : (inWord y && inWord m && inWord d) = true ↔ Fits year month day := by
    rw [Bool.and_eq_true, Bool.and_eq_true, ← hy, ← hm, ← hd, inWord_getD hyear, inWord_getD,
      inWord_getD, Fits]
    · constructor
      · rintro ⟨⟨hy, hm⟩, hd⟩ n (h | h | h)
        · exact hy n h
        · exact hm n h
        · exact hd n h
      · intro h
        exact ⟨⟨fun n hn => h n (.inl hn), fun n hn => h n (.inr (.inl hn))⟩,
          fun n hn => h n (.inr (.inr hn))⟩
    · split_ifs
      · exact hday
      · rfl
    · split_ifs
      · exact hmonth
      · rfl
  rw [← hwords]
  split_ifs with hin
  · exact ⟨False.elim, fun h => absurd hin h.2⟩
  · exact ⟨fun h => ⟨(Except.error.inj h).symm, hin⟩, fun h => congrArg Except.error h.1.symm⟩

end Date

namespace Rules

open Finding Issue

variable {today : Date} {s : Standard} {e : Markup.Element} {x : Date} {f : Failure}

/-- The attributes, as far as they are there and not passed over, and with the rest made up for, are the
parts of the day. -/
def Names (today : Date) (e : Markup.Element) (x : Date) : Prop :=
  ∃ year month day, numberIn e "year" = .ok year ∧ monthIn e = .ok month ∧ numberIn e "day" = .ok day ∧
    Date.Completes today year month day x

/-- All attributes can be read, but the year or the day needs more than 32 bits. -/
def Overflows (e : Markup.Element) : Prop :=
  ∃ year month day, numberIn e "year" = .ok year ∧ monthIn e = .ok month ∧ numberIn e "day" = .ok day ∧
    ∃ n, (year = some n ∨ day = some n) ∧ Date.inWord n = false

theorem numberIn_eq_error {name : String} (h : numberIn e name = .error f) : f = .notANumber := by
  unfold numberIn at h
  split at h
  · cases h
  · split at h
    · cases h
    · exact (Except.error.inj h).symm

theorem monthIn_eq_error (h : monthIn e = .error f) : f = .notANumber := by
  unfold monthIn at h
  split at h
  · cases h
  · rename_i t ht
    cases hn : Calendar.monthNumber t with
    | error f' =>
      rw [hn] at h
      obtain rfl := Except.error.inj h
      exact Calendar.monthNumber_eq_error hn
    | ok n =>
      rw [hn] at h
      cases h

theorem inWord_of_monthIn {n : Int} (h : monthIn e = .ok (some n)) : Date.inWord n = true := by
  unfold monthIn at h
  split at h
  · cases h
  · rename_i t ht
    cases hn : Calendar.monthNumber t with
    | error f' =>
      rw [hn] at h
      cases h
    | ok o =>
      rw [hn] at h
      obtain ⟨k, rfl, rfl⟩ := Option.map_eq_some_iff.mp (Except.ok.inj h)
      have hle : (k : Int) ≤ 12 := Int.ofNat_le.mpr (Calendar.monthNumber_le hn).2
      exact Date.inWord_of_bounds ⟨Int.natCast_nonneg k, Int.le_trans hle (by decide)⟩

/-- What the attributes come to, once they can be read. -/
theorem elementDate_eq_iff {r : Except Failure (Option Date)} (hr : r ≠ .error .notANumber) :
    elementDate today e = r ↔
      ∃ year month day, numberIn e "year" = .ok year ∧ monthIn e = .ok month ∧
        numberIn e "day" = .ok day ∧ Date.complete today year month day = r := by
  unfold elementDate
  cases hyear : numberIn e "year" with
  | error f =>
    obtain rfl := numberIn_eq_error hyear
    simpa [bind, Except.bind] using hr.symm
  | ok year =>
    cases hmonth : monthIn e with
    | error f =>
      obtain rfl := monthIn_eq_error hmonth
      simpa [bind, Except.bind] using hr.symm
    | ok month =>
      cases hday : numberIn e "day" with
      | error f =>
        obtain rfl := numberIn_eq_error hday
        simpa [bind, Except.bind] using hr.symm
      | ok day => simp [bind, Except.bind]

theorem elementDate?_eq_iff {r : Except Failure (Option Date)} (hr : r ≠ .error .notANumber)
    (hnone : r ≠ .ok none) : elementDate? today e = r ↔ elementDate today e = r := by
  unfold elementDate?
  split
  · rename_i hnan
    rw [hnan]
    exact ⟨fun h => absurd h.symm hnone, fun h => absurd h.symm hr⟩
  · rfl

theorem elementDate?_eq_some_iff : elementDate? today e = .ok (some x) ↔ Names today e x := by
  rw [elementDate?_eq_iff (by simp) (by simp), elementDate_eq_iff (by simp)]
  simp only [Date.complete_eq_some_iff, Names]

theorem elementDate?_eq_error_iff :
    elementDate? today e = .error f ↔ f = .partTooLarge ∧ Overflows e := by
  by_cases hf : f = .notANumber
  · subst hf
    have hne : elementDate? today e ≠ .error .notANumber := by
      unfold elementDate?
      split
      · simp
      · assumption
    simp [hne]
  rw [elementDate?_eq_iff (by simpa using hf) (by simp), elementDate_eq_iff (by simpa using hf)]
  simp only [Date.complete_eq_error_iff]
  constructor
  · rintro ⟨year, month, day, hyear, hmonth, hday, rfl, hfits⟩
    refine ⟨rfl, year, month, day, hyear, hmonth, hday, ?_⟩
    simp only [Date.Fits, not_forall, Bool.not_eq_true] at hfits
    obtain ⟨n, hn, hword⟩ := hfits
    rcases hn with hn | hn | hn
    · exact ⟨n, .inl hn, hword⟩
    · rw [hn] at hmonth
      rw [inWord_of_monthIn hmonth] at hword
      cases hword
    · exact ⟨n, .inr hn, hword⟩
  · rintro ⟨rfl, year, month, day, hyear, hmonth, hday, n, hn, hword⟩
    refine ⟨year, month, day, hyear, hmonth, hday, rfl, ?_⟩
    intro hfits
    have hin := hfits n (hn.imp_right .inr)
    rw [hword] at hin
    cases hin

/-- What the rule says about markup with a date: how far away the day is, or that there is none. -/
theorem date_of_element {d : Markup.Document} (he : dateElement? d.root = some e) (h : ¬Overflows e) :
    (∀ x, Names s.today e x → date s (.markup d) = .of (nearToday s.today x (onLines · [e.line]))) ∧
      ((∀ x, ¬Names s.today e x) → date s (.markup d) = .of [onLines missingDate [e.line]]) := by
  simp only [date, he]
  cases hdate : elementDate? s.today e with
  | error f => exact absurd (elementDate?_eq_error_iff.mp hdate).2 h
  | ok o =>
    constructor
    · intro x hx
      rw [elementDate?_eq_some_iff.mpr hx] at hdate
      obtain rfl := Except.ok.inj hdate
      rfl
    · intro hnone
      cases o with
      | none => rfl
      | some x => exact absurd (elementDate?_eq_some_iff.mp hdate) (hnone x)

/-- The rule on dates fails on no other markup than that whose date overflows. -/
theorem failure_date_markup {d : Markup.Document} :
    (date s (.markup d)).failure = some f ↔
      f = .partTooLarge ∧ ∃ e, dateElement? d.root = some e ∧ Overflows e := by
  cases he : dateElement? d.root with
  | none => simp [date, he, Verdict.of]
  | some e =>
    simp only [date, he, Option.some.injEq, exists_eq_left']
    rw [← @elementDate?_eq_error_iff s.today e f]
    cases elementDate? s.today e with
    | error f' => simp [Verdict.onValue, Verdict.failed]
    | ok o => cases o <;> simp [Verdict.onValue, Verdict.of]

/-- A date that can be completed keeps the rule on dates from failing. -/
theorem failure_date_text {d : Plain.Document}
    (h : ∀ w, d.scan.page.header.date = some w → ∃ month x,
      Calendar.monthNumber w.month = .ok (some month) ∧
        Date.complete s.today (some w.year) (some (month : Int)) w.day = .ok (some x)) :
    (date s (.text d)).failure = none := by
  cases hw : d.scan.page.header.date with
  | none =>
    simp only [date, plainDate?, hw]
    rfl
  | some w =>
    obtain ⟨month, x, hmonth, hx⟩ := h w hw
    simp only [date, plainDate?, hw, hmonth, hx, bind, Except.bind]
    rfl

end Rules

end DraftLint
