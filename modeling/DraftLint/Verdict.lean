import DraftLint.Nit
import DraftLint.Calendar.Date

/-!
# Verdicts

What a rule has to say about a document: findings in order, and perhaps a failure that kept it from
going on.  A verdict does not depend on the mode; the mode decides which findings become nits.
-/

namespace DraftLint

structure Verdict where
  findings : List Finding
  failure : Option Failure

namespace Verdict

/-- Nothing to object to. -/
def clean : Verdict :=
  ⟨[], none⟩

def of (findings : List Finding) : Verdict :=
  ⟨findings, none⟩

def failed (f : Failure) : Verdict :=
  ⟨[], some f⟩

/-- One verdict and then another, which is not reached if the first failed. -/
def andThen (v w : Verdict) : Verdict :=
  match v.failure with
  | some _ => v
  | none => ⟨v.findings ++ w.findings, w.failure⟩

/-- Verdicts one after the other. -/
def all (vs : List Verdict) : Verdict :=
  vs.foldr andThen clean

/-- The verdict on a value that may be missing because of a failure. -/
def onValue {α : Type} (a : Except Failure α) (f : α → Verdict) : Verdict :=
  match a with
  | .ok a => f a
  | .error e => failed e

/-- The nits in a mode. -/
def nits (m : Mode) (v : Verdict) : Except Failure (List Nit) :=
  match v.failure with
  | some f => .error f
  | none => .ok (v.findings.filterMap (Finding.nit? m))

/-- The nits in what may be no mode at all, which is noticed as soon as a finding has to be graded. -/
def nitsIn (name : Option Text) (v : Verdict) : Except Failure (List Nit) :=
  match Mode.exactly name with
  | .ok m => v.nits m
  | .error f => if v.findings.isEmpty then v.nits .normal else .error f

end Verdict

/-- What a document is judged by. -/
structure Standard where
  today : Date
  /-- The year that the copyright notice should show, if it is not today's. -/
  year : Option Int

/-- The expected year, unless it is missing or zero. -/
def Standard.expectedYear? (s : Standard) : Option Int :=
  s.year.filter (· ≠ 0)

end DraftLint
