import DraftLint.Calendar.Date
import DraftLint.Calendar.Month
import DraftLint.Pattern.Build

/-!
# Written dates

Dates as they stand on a front page: `4 March 2024`, `March 4, 2024` or `March 2024`.
-/

namespace DraftLint.Calendar

structure WrittenDate where
  day : Option Int
  month : Text
  year : Int
deriving DecidableEq

namespace WrittenDate

/-- The day that is meant, which is the first if no day is given. -/
def date (w : WrittenDate) : Except Failure (Option Date) :=
  match monthNumber w.month with
  | .error e => .error e
  | .ok none => .ok none
  | .ok (some month) => Date.ofParts w.year month ((w.day.filter (· ≠ 0)).getD 1)

open Pattern in
/-- A day before the month or between the month and the year; the groups are that day, the month, that
other day and the year. -/
def pattern : Pattern :=
  ignoreCase <| wholeLine [
    maybe (all [group 1 (between 1 1 digit), blank]),
    group 2 (atLeast 3 (one .lower)),
    maybe (lit "."),
    blank,
    maybe (all [group 3 (between 1 1 digit), lit ",", blank]),
    group 4 (times 4 digit)]

/-- The date in a text that holds nothing else, if it exists in the calendar. -/
def read? (t : Text) : Option WrittenDate := do
  let m ← pattern.match? (Text.trim t)
  let month ← m.group? 2
  let year ← m.group? 4
  let day := (m.group? 1 <|> m.group? 3).bind Text.integer?
  let written : WrittenDate := ⟨day, month, (Text.integer? year).getD 0⟩
  match written.date with
  | .ok (some _) => some written
  | _ => none

/-- The calendar date of a text. -/
def readDate? (t : Text) : Option Date := do
  let w ← read? t
  match w.date with
  | .ok d => d
  | .error _ => none

end WrittenDate
end DraftLint.Calendar
