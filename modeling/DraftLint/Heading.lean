import DraftLint.Pattern.Build

/-!
# Headings

The parts of a document that the rules look for, and the heading lines by which plain text shows them.
-/

namespace DraftLint

/-- A part of a plain-text document with an extent of its own. -/
inductive Part where
  | header
  | abstract
  | introduction
  | security
  | authors
  | references
  | iana
deriving DecidableEq, Repr

/-- The kind of references that a subsection of the references lists. -/
inductive ReferenceKind where
  | normative
  | informative
  | unclassified
deriving DecidableEq, Repr

namespace Heading

open Pattern

/-- A number, a full stop and blanks. -/
def number : Pattern :=
  all [decimals, lit ".", blanks]

/-- A first-level heading: a number, a full stop and words. -/
def numbered : Pattern :=
  wholeLine [number, atLeastOnce (one .notNewline)]

/-- A second-level heading; the group is its title. -/
def subsection : Pattern :=
  wholeLine [decimals, lit ".", decimals, lit ".", blanks, group 1 (atLeastOnce (one .notNewline))]

/-- A line of a table of contents ends in a dotted leader and a page number. -/
def contentsLine : Pattern :=
  all [atLeastOnce (lit "."), anyBlanks, decimals, lineEnd]

/-- A number of two or more levels, with words after it. -/
def deepNumber : Pattern :=
  all [textStart, decimals, atLeastOnce (all [lit ".", decimals]), maybe (lit "."), blanks,
    one CharSet.blank.not]

/-- The quotation marks that serve as an apostrophe. -/
def apostrophe : Pattern :=
  one (.of "‘’‛'`\"")

/-- Digits, letters and full stops in front of a title. -/
def loosePrefix : Pattern :=
  seq (many (one (.or .digit (.or .lower (.only '.'))))) anyBlanks

def authorOrEditor : Pattern :=
  oneOf [lit "author", lit "editor"]

/-- The heading over the addresses of authors or editors, in its several wordings. -/
def authorAddresses : Pattern :=
  ignoreCase <| wholeLine [oneOf [
    all [maybe number, oneOf [seq (lit "Author") (maybe (lit "s")), seq (lit "Editor") (maybe (lit "s"))],
      apostrophe, maybe (lit "s"), lit " Address", maybe (lit "es")],
    all [loosePrefix, lit "author", maybe (lit "s"), lit " information"],
    all [loosePrefix, authorOrEditor,
      maybe (oneOf [seq apostrophe (maybe (lit "s")), lit "s"]), blanks, lit "contact information"],
    all [loosePrefix, lit "contact information"],
    all [loosePrefix, authorOrEditor, maybe (lit "s"), maybe (lit ":")]]]

/-- A numbered heading with one of these titles. -/
def titled (titles : List Pattern) : Pattern :=
  ignoreCase <| wholeLine [number, oneOf titles]

def introduction : Pattern :=
  titled [lit "Introduction", lit "Overview", lit "Background"]

def security : Pattern :=
  titled [lit "Security Considerations"]

def references : Pattern :=
  titled [seq (maybe (seq (oneOf [lit "Normative", lit "Informative"]) blanks)) (lit "References")]

def iana : Pattern :=
  titled [lit "IANA Considerations"]

/-- The part that a heading opens.  The abstract has no number and is found in another way. -/
def part? (t : Text) : Option Part :=
  if introduction.occursIn t then some .introduction
  else if security.occursIn t then some .security
  else if authorAddresses.occursIn t then some .authors
  else if references.occursIn t then some .references
  else if iana.occursIn t then some .iana
  else none

/-- A reference heading of the first or second level, with this word in its title. -/
def referencesOf (word : String) : Pattern :=
  ignoreCase <| wholeLine
    [decimals, lit ".", maybe (all [decimals, lit "."]), blanks, lit word, blanks, lit "References"]

def normativeReferences : Pattern := referencesOf "Normative"
def informativeReferences : Pattern := referencesOf "Informative"

/-- A second-level heading whose last word is `Reference` or `References`. -/
def otherReferences : Pattern :=
  ignoreCase <| wholeLine [decimals, lit ".", decimals, lit ".", blanks,
    many (seq (atLeastOnce (one .letter)) blanks), lit "Reference", maybe (lit "s")]

/-- The kind of references that a heading announces. -/
def referenceKind? (t : Text) : Option ReferenceKind :=
  if normativeReferences.occursIn t then some .normative
  else if informativeReferences.occursIn t then some .informative
  else if otherReferences.occursIn t then some .unclassified
  else none

/-- The line is a heading that ends the part before it. -/
def endsPart (t : Text) : Bool :=
  numbered.leads t || authorAddresses.leads t

/-- The line is a heading within a part. -/
def withinPart (t : Text) : Bool :=
  subsection.leads t && !contentsLine.occursIn t

end Heading
end DraftLint
