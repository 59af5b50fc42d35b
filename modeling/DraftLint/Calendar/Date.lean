import DraftLint.Text.Numeral
import DraftLint.Failure

/-!
# Dates

Days of the Gregorian calendar from year 1 to year 9999, and the distance between them.
-/

namespace DraftLint

namespace Calendar

def isLeap (year : Nat) : Bool :=
  year % 4 == 0 && (year % 100 != 0 || year % 400 == 0)

def daysInMonth (year month : Nat) : Nat :=
  if month = 2 then (if isLeap year then 29 else 28)
  else if month = 4 ∨ month = 6 ∨ month = 9 ∨ month = 11 then 30
  else 31

/-- The three numbers name a day. -/
def IsDay (year month day : Nat) : Prop :=
  (1 ≤ year ∧ year ≤ 9999) ∧ (1 ≤ month ∧ month ≤ 12) ∧ 1 ≤ day ∧ day ≤ daysInMonth year month

instance (year month day : Nat) : Decidable (IsDay year month day) := by
  unfold IsDay; infer_instance

end Calendar

structure Date where
  year : Nat
  month : Nat
  day : Nat
  isDay : Calendar.IsDay year month day
deriving DecidableEq

namespace Date

open Calendar

/-- The day that three numbers name. -/
def of? (year month day : Int) : Option Date :=
  if year < 0 ∨ month < 0 ∨ day < 0 then none
  else if h : IsDay year.toNat month.toNat day.toNat then some ⟨_, _, _, h⟩
  else none

def inWord (n : Int) : Bool :=
  -2147483648 ≤ n && n ≤ 2147483647

/-- The day that three numbers name; none of them may need more than 32 bits. -/
def ofParts (year month day : Int) : Except Failure (Option Date) :=
  if inWord year && inWord month && inWord day then .ok (of? year month day)
  else .error .partTooLarge

/-- Days in the years before. -/
def daysBeforeYear (year : Nat) : Nat :=
  let y := year - 1
  y * 365 + y / 4 - y / 100 + y / 400

/-- Days in the months before, within the year. -/
def daysBeforeMonth (year : Nat) : (month : Nat) → Nat
  | 0 | 1 => 0
  | m + 2 => daysBeforeMonth year (m + 1) + daysInMonth year (m + 1)

/-- The position of the day, with the first day of year 1 as day 1. -/
def ordinal (d : Date) : Nat :=
  daysBeforeYear d.year + daysBeforeMonth d.year d.month + d.day

/-- The days from one date to another. -/
def daysFrom (d e : Date) : Int :=
  (d.ordinal : Int) - e.ordinal

/-- Year, month and day with dashes between. -/
def iso (d : Date) : Text :=
  Text.padded 4 d.year ++ '-' :: Text.padded 2 d.month ++ '-' :: Text.padded 2 d.day

/-- The date that three dashed numerals name. -/
def ofIso? (t : Text) : Option Date :=
  match (Text.splitOn '-' t).map Text.natural? with
  | [some y, some m, some d] => of? y m d
  | _ => none

/-- The date of a document in which parts may be missing.  The missing year is this year; the missing
month is this month in this year and January otherwise; the missing day is today in this month and the
fifteenth otherwise.  A zero counts as missing. -/
def complete (today : Date) (year month day : Option Int) : Except Failure (Option Date) :=
  let year := (year.filter (· ≠ 0)).getD today.year
  let month := (month.filter (· ≠ 0)).getD (if year = today.year then today.month else 1)
  let day := (day.filter (· ≠ 0)).getD
    (if year = today.year ∧ month = today.month then today.day else 15)
  ofParts year month day

end Date
end DraftLint
