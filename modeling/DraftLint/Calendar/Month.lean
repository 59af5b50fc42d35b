import DraftLint.Text.Case
import DraftLint.Text.Numeral
import DraftLint.Failure

/-!
# Months

Names of months, in full or shortened to three letters or more, and months given by number.
-/

namespace DraftLint.Calendar

def monthNames : List String :=
  ["january", "february", "march", "april", "may", "june", "july", "august", "september", "october",
    "november", "december"]

/-- The month whose name begins so. -/
def monthBeginning? (name : Text) : Option Nat :=
  (monthNames.findIdx? fun m => Text.startsWith name m.toList).map (· + 1)

/-- The number of a month that is given by name or number, with full stops after it allowed. -/
def monthNumber (name : Text) : Except Failure (Option Nat) :=
  let name := Text.dropRightWhile (· == '.') (Text.lower (Text.trim name))
  if Text.allDigits name then
    match Text.integer? name with
    | none => .error .notANumber
    | some n => .ok (if 1 ≤ n ∧ n ≤ 12 then some n.toNat else none)
  else if name.length < 3 then .ok none
  else .ok (monthBeginning? name)

end DraftLint.Calendar
