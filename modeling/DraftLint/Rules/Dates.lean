import DraftLint.Calendar.Written
import DraftLint.Document
import DraftLint.Verdict

/-!
# Dates

The date of a document and the year of its copyright notice.
-/

namespace DraftLint.Rules

open Finding Issue

/-- The days by which the date of a document may differ from today. -/
def tolerance : Int := 3

/-- The date is not far from today. -/
def nearToday (today date : Date) (mark : Issue → Finding) : List Finding :=
  let days := date.daysFrom today
  if days < -tolerance then [mark (dateInPast (-days).toNat)]
  else if days > tolerance then [mark (dateInFuture days.toNat)]
  else []

/-- The date that the front page gives, completed. -/
def plainDate? (today : Date) (d : Plain.Document) : Except Failure (Option Date) :=
  match d.scan.page.header.date with
  | none => .ok none
  | some w => do
    match ← Calendar.monthNumber w.month with
    | none => return none
    | some month => Date.complete today (some w.year) (some (month : Int)) w.day

/-- A number that an attribute gives, if it gives any. -/
def numberIn (e : Markup.Element) (name : String) : Except Failure (Option Int) :=
  match e.filled? name with
  | none => .ok none
  | some t => match Text.integer? t with
    | some n => .ok (some n)
    | none => .error .notANumber

/-- The month that the element gives by name or number, if it gives any. -/
def monthIn (e : Markup.Element) : Except Failure (Option Int) :=
  match e.filled? "month" with
  | none => .ok none
  | some t => (Calendar.monthNumber t).map fun m => m.map Int.ofNat

/-- The date that an element gives, completed. -/
def elementDate (today : Date) (e : Markup.Element) : Except Failure (Option Date) := do
  let year ← numberIn e "year"
  let month ← monthIn e
  let day ← numberIn e "day"
  Date.complete today year month day

/-- What is no number gives no date. -/
def elementDate? (today : Date) (e : Markup.Element) : Except Failure (Option Date) :=
  match elementDate today e with
  | .error .notANumber => .ok none
  | r => r

/-- The element with the date of the document. -/
def dateElement? (root : Markup.Element) : Option Markup.Element :=
  (root.grandchildren "front" "date").head?

/-- The document has a date, and it is not far from today. -/
def date (s : Standard) : Document → Verdict
  | .text d => .onValue (plainDate? s.today d) fun
    | none => .of [anywhere missingDate]
    | some date => .of (nearToday s.today date anywhere)
  | .markup d =>
    match dateElement? d.root with
    | none => .of [anywhere missingDate]
    | some e => .onValue (elementDate? s.today e) fun
      | none => .of [onLines missingDate [e.line]]
      | some date => .of (nearToday s.today date (onLines · [e.line]))

/-- The copyright notice shows the expected year: in plain text every notice, in markup the date of the
document, and that only if a year is asked for. -/
def copyright (s : Standard) : Document → Verdict
  | .text d =>
    let expected := s.expectedYear?.getD s.today.year
    .of <| match d.scan.items.copyrightYears.find? fun (y : Nat) => (y : Int) ≠ expected with
      | none => []
      | some year => [anywhere (copyrightYear year expected)]
  | .markup d =>
    .of <| match s.expectedYear?, dateElement? d.root with
      | some expected, some e =>
        match (e.filled? "year").map Text.trim with
        | some year =>
          if year == Text.ofInt expected then []
          else [onLines (dateYear year expected) [e.line]]
        | none => []
      | _, _ => []

end DraftLint.Rules
