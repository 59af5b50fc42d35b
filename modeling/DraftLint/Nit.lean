import DraftLint.Issue.Gravity
import DraftLint.Issue.Message

/-!
# Findings and nits

A finding is an issue with the places where it shows.  A nit is a finding as it is reported in some mode.
-/

namespace DraftLint

/-- A line, and perhaps a column on it; both count from one. -/
structure Place where
  line : Nat
  column : Option Nat
deriving DecidableEq, Repr

structure Nit where
  severity : Severity
  code : String
  message : String
  reference : Option String
  places : Option (List Place)
deriving DecidableEq, Repr

/-- A nit with the severity that its gravity has in a mode, unless the mode is silent about it. -/
def Nit.graded? (m : Mode) (g : Gravity) (nit : Severity → Nit) : Option Nit :=
  match g.inMode m with
  | .silent => none
  | s => some (nit s)

structure Finding where
  issue : Issue
  places : Option (List Place)

namespace Finding

/-- The issue somewhere in the document. -/
def anywhere (i : Issue) : Finding :=
  ⟨i, none⟩

/-- The issue on these lines. -/
def onLines (i : Issue) (lines : List Nat) : Finding :=
  ⟨i, some (lines.map fun n => ⟨n, none⟩)⟩

/-- The finding as a nit, unless the mode is silent about it. -/
def nit? (m : Mode) (f : Finding) : Option Nit :=
  Nit.graded? m f.issue.gravity fun s =>
    ⟨s, f.issue.code, f.issue.message, f.issue.reference?, f.places⟩

end Finding

namespace Nit

def isError (n : Nit) : Bool :=
  n.severity == .error

def anyError (ns : List Nit) : Bool :=
  ns.any isError

/-- The nits of one severity, in order. -/
def ofSeverity (s : Severity) (ns : List Nit) : List Nit :=
  ns.filter fun n => n.severity == s

end Nit
end DraftLint
