import DraftLint.Pattern.Build

/-!
# Status of published documents

The ranks of the standards process, and the wordings that stand for them.
-/

namespace DraftLint

inductive Status where
  | internetStandard
  | draftStandard
  | proposedStandard
  | bestCurrentPractice
  | experimental
  | informational
  | historic
deriving DecidableEq, Repr

namespace Status

open Pattern

def every : List Status :=
  [internetStandard, draftStandard, proposedStandard, bestCurrentPractice, experimental,
    informational, historic]

def name : Status → String
  | internetStandard => "Internet Standard"
  | draftStandard => "Draft Standard"
  | proposedStandard => "Proposed Standard"
  | bestCurrentPractice => "Best Current Practice"
  | experimental => "Experimental"
  | informational => "Informational"
  | historic => "Historic"

/-- The rank; a higher one is more mature. -/
def weight : Status → Nat
  | internetStandard => 5
  | draftStandard => 4
  | proposedStandard => 3
  | bestCurrentPractice => 3
  | experimental => 2
  | informational => 1
  | historic => 0

/-- How a wording of the status begins. -/
def pattern : Status → Pattern
  | internetStandard => ignoreCase <| oneOf
      [seq textStart (lit "internet standard"), wholeLine [lit "standard"]]
  | draftStandard => ignoreCase <| seq textStart (lit "draft standard")
  | proposedStandard => ignoreCase <| oneOf
      [seq textStart (lit "proposed standard"),
        all [textStart, lit "standard", maybe (lit "s"), lit " track"]]
  | bestCurrentPractice => ignoreCase <| oneOf
      [seq textStart (lit "best current practice"), all [textStart, lit "bcp", wordEdge]]
  | experimental => ignoreCase <| seq textStart (lit "experimental")
  | informational => ignoreCase <| seq textStart (lit "informational")
  | historic => ignoreCase <| seq textStart (lit "historic")

/-- The status that a text such as `Standards Track` implies. -/
def ofText? (t : Text) : Option Status :=
  every.find? fun s => s.pattern.occursIn (Text.trim t)

end Status
end DraftLint
