import DraftLint.Pattern.Build

/-!
# Layout of plain text

Signs of justified and hyphenated lines, of code outside code blocks, and of the notices on licence and
copyright.
-/

namespace DraftLint.Layout

open Pattern

/-- Two columns; the groups are the left and the right one. -/
def columns : Pattern :=
  wholeLine [group 1 (few (one .notNewline)), atLeast 2 blank,
    group 2 (seq (one CharSet.blank.not) (many (one .notNewline)))]

/-- Initials and a surname, such as `J. Doe` or `J.R. Doe, Ed.` -/
def authorName : Pattern :=
  let surname := seq (one .letter) (atLeastOnce (one (.or .letter (.of "'-"))))
  ignoreCase <| wholeLine [
    between 1 2 (all [one .upper, lit ".", maybe (one (.of " -"))]), maybe blank,
    surname, maybe (seq blank surname), maybe (all [maybe (lit ","), lit " Ed."])]

/-- Two or more spaces between words, as a justified line has them. -/
def wideSpace : Pattern :=
  all [one .letter, one .lower, lit "  ", maybe space, maybe space, one .lower]

/-- The running header of a page. -/
def pageHeader : Pattern :=
  seq textStart (oneOf [all [lit "Internet", one .notNewline, lit "Draft"],
    all [lit "INTERNET", one .notNewline, lit "DRAFT"]])

/-- A word broken at the end of a line. -/
def brokenWord : Pattern :=
  all [atLeast 2 (one .lower), lit "-", lineEnd]

/-- A line that goes on with a small letter. -/
def goesOn : Pattern :=
  all [textStart, anyBlanks, one .lower]

def codeBegins : Pattern := ignoreCase (lit "<CODE BEGINS>")
def codeEnds : Pattern := ignoreCase (lit "<CODE ENDS>")

/-- A mark that opens or closes a comment, or a number sign at the start of a line. -/
def comment : Pattern :=
  oneOf [lit "/*", lit "*/", all [textStart, many space, lit "#"]]

/-- The licence notice for code. -/
def codeLicense : Pattern :=
  lit <| "Code Components extracted from this document must include Revised BSD License text as " ++
    "described in Section 4.e of the Trust Legal Provisions and are provided without warranty as " ++
    "described in the Revised BSD License."

/-- The copyright notice; the group is its year. -/
def copyright : Pattern :=
  all [lit "Copyright (c) ", group 1 (times 4 (one .decimal)), lit " IETF Trust"]

end DraftLint.Layout
