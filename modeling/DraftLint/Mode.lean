import DraftLint.Text.Case
import DraftLint.Failure

/-!
# Modes

How strictly a document is judged, and how grave a finding is in each mode.
-/

namespace DraftLint

inductive Mode where
  | normal
  /-- For work in progress: the checklist need not be met yet. -/
  | forgiving
  /-- Only what keeps a document from being submitted. -/
  | submission
deriving DecidableEq, Repr

namespace Mode

def every : List Mode := [normal, forgiving, submission]

def name : Mode → String
  | normal => "normal"
  | forgiving => "forgive-checklist"
  | submission => "submission"

/-- The mode with exactly this name. -/
def ofName? (t : Text) : Option Mode :=
  every.find? fun m => t == m.name.toList

/-- Older names of modes. -/
def older : List (String × Mode) :=
  [("lenient", forgiving), ("forgive", forgiving), ("strict", normal)]

/-- The mode that a caller asks for: without a name the normal one, else by its name or an older one,
whatever the case of letters and with low lines for dashes. -/
def requested : Option Text → Except Failure Mode
  | none => .ok normal
  | some t =>
    let key := (Text.lower (Text.trim t)).map fun c => if c == '_' then '-' else c
    match older.find? (fun o => key == o.1.toList) with
    | some o => .ok o.2
    | none => match ofName? key with
      | some m => .ok m
      | none => .error (.noSuchMode t)

/-- The mode by its exact name, for a finding that is to be graded. -/
def exactly : Option Text → Except Failure Mode
  | none => .error (.unexpectedMode none)
  | some t => match ofName? t with
    | some m => .ok m
    | none => .error (.unexpectedMode (some t))

end Mode

/-- How much a finding matters.  A silent one is not reported. -/
inductive Severity where
  | error
  | warning
  | comment
  | silent
deriving DecidableEq, Repr

namespace Severity

/-- The severities that are reported, the gravest first. -/
def reported : List Severity := [error, warning, comment]

def short : Severity → String
  | error => "err"
  | warning => "warn"
  | comment => "comm"
  | silent => "none"

def long : Severity → String
  | error => "error"
  | warning => "warning"
  | comment => "comment"
  | silent => "none"

/-- The heading over the findings of a severity. -/
def heading : Severity → String
  | error => "Errors"
  | warning => "Warnings"
  | comment => "Comments"
  | silent => "Nones"

def ofShort? (t : Text) : Option Severity :=
  [error, warning, comment, silent].find? fun s => t == s.short.toList

end Severity

/-- The severity of one kind of finding in each mode. -/
structure Gravity where
  normal : Severity
  forgiving : Severity
  submission : Severity
deriving DecidableEq, Repr

namespace Gravity

/-- An error that is forgiven to a warning and does not matter for submission. -/
def usual : Gravity := ⟨.error, .warning, .silent⟩

/-- The same in every mode. -/
def always (s : Severity) : Gravity := ⟨s, s, s⟩

/-- The same in every mode but for submission, where it does not matter. -/
def unlessSubmitted (s : Severity) : Gravity := ⟨s, s, .silent⟩

def inMode (g : Gravity) : Mode → Severity
  | .normal => g.normal
  | .forgiving => g.forgiving
  | .submission => g.submission

end Gravity

/-- The wording of a failure that concerns a mode. -/
def Failure.message? : Failure → Option String
  | .noSuchMode name =>
    some <| "Unknown mode: " ++ Text.str name ++ " (expected one of " ++
      ", ".intercalate (Mode.every.map Mode.name) ++ ")"
  | .unexpectedMode name =>
    some <| "Internal error: Unexpected mode: " ++ (name.map Text.str).getD "None"
  | _ => none

end DraftLint
