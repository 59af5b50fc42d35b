import DraftLint.Heading
import DraftLint.Kind
import DraftLint.Nit
import DraftLint.Calendar.Written

/-!
# Plain-text documents

What is known about a plain-text document: its front page, the extent and content of its parts, and the
items found on its lines.
-/

namespace DraftLint

/-- One value for each part of a document. -/
structure Parts (α : Type) where
  header : α
  abstract : α
  introduction : α
  security : α
  authors : α
  references : α
  iana : α
deriving DecidableEq

namespace Parts

variable {α : Type}

/-- The same value for every part. -/
def const (a : α) : Parts α :=
  ⟨a, a, a, a, a, a, a⟩

def get (ps : Parts α) : Part → α
  | .header => ps.header
  | .abstract => ps.abstract
  | .introduction => ps.introduction
  | .security => ps.security
  | .authors => ps.authors
  | .references => ps.references
  | .iana => ps.iana

def set (ps : Parts α) (a : α) : Part → Parts α
  | .header => { ps with header := a }
  | .abstract => { ps with abstract := a }
  | .introduction => { ps with introduction := a }
  | .security => { ps with security := a }
  | .authors => { ps with authors := a }
  | .references => { ps with references := a }
  | .iana => { ps with iana := a }

@[simp] theorem get_set_self (ps : Parts α) (a : α) (p : Part) : (ps.set a p).get p = a := by
  cases p <;> rfl

theorem get_set_of_ne (ps : Parts α) (a : α) {p q : Part} (h : q ≠ p) :
    (ps.set a p).get q = ps.get q := by
  cases p <;> cases q <;> simp_all [set, get]

end Parts

namespace Plain

structure Author where
  name : Text
  /-- Not known yet, or no affiliation if empty. -/
  organization : Option Text
deriving DecidableEq

/-- What the two columns of the front page say. -/
structure Header where
  source : Option Text
  authors : List Author
  date : Option Calendar.WrittenDate
  expires : Option Date
  intendedStatus : Option Text
  category : Option Text
  issn : Option Text
  obsoletes : List Text
  updates : List Text
  rfcNumber : Option Text
deriving DecidableEq

namespace Header

def empty : Header :=
  ⟨none, [], none, none, none, none, none, [], [], none⟩

end Header

/-- The lines of a part, from its heading on. -/
structure Extent where
  start : Nat
  stop : Nat
  closed : Bool
deriving DecidableEq

namespace Extent

def none : Extent := ⟨0, 0, false⟩

def found (e : Extent) : Bool :=
  e.start > 0

end Extent

/-- An entry of the references, with the kind of its subsection. -/
structure Entry where
  value : Text
  kind : Option ReferenceKind
deriving DecidableEq

/-- An item with the number of its line. -/
structure Located where
  text : Text
  line : Nat
deriving DecidableEq

/-- Items found on the lines of a document, in order. -/
structure Items where
  hosts : List Text
  ipv4 : List Text
  ipv6 : List Text
  keywords : List Located
  /-- Combinations of keywords that have no meaning, with the place of each. -/
  combinations : List (Text × Place)
  /-- RFC numbers listed in the references, each once. -/
  listedRfcs : List Entry
  /-- RFC numbers mentioned elsewhere, each once. -/
  mentionedRfcs : List Text
  /-- Other labels listed in the references, each once. -/
  listedLabels : List Entry
  /-- Other labels mentioned elsewhere, each once. -/
  mentionedLabels : List Text
  citesRfc2119 : Bool
  citesRfc8174 : Bool
  /-- Ends of lines with wide spaces between words. -/
  wideLines : List Place
  /-- Signs of code outside code blocks. -/
  comments : List Place
  /-- Ends of lines that break a word. -/
  brokenWords : List Place
  hasCode : Bool
  copyrightYears : List Nat

namespace Items

def empty : Items :=
  ⟨[], [], [], [], [], [], [], [], [], false, false, [], [], [], false, []⟩

end Items
end Plain
end DraftLint
