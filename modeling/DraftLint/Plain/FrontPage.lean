import DraftLint.Plain.Data
import DraftLint.Citation
import DraftLint.Layout
import DraftLint.Status

/-!
# Front page

The left column names the source, the document and its status; the right one the authors, their
organizations and the date.
-/

namespace DraftLint.Plain

/-- What reading the front page has come to. -/
structure FrontPage where
  header : Header
  /-- The kind that the left column names. -/
  kind : Option Kind
  /-- The last line with an author or an organization in the right column. -/
  lastRightLine : Nat

namespace FrontPage

open Pattern in
/-- The name of the series of drafts. -/
def draftSeries : Pattern :=
  ignoreCase <| all [lit "Internet", one (.of "- "), lit "Draft"]

/-- The name of the status that a text implies, or else the text. -/
def statusText (t : Text) : Text :=
  match Status.ofText? t with
  | some s => s.name.toList
  | none => t

/-- The text begins with the string. -/
def begins (s : String) (t : Text) : Bool :=
  Text.startsWith s.toList t

/-- An entry of the left column, which is a label, perhaps with a value after a colon. -/
def readLeft (left : Text) (f : FrontPage) : FrontPage :=
  let (label, value) := Text.cut ':' left
  let value := Text.trim value
  let h := f.header
  if draftSeries.occursIn left then { f with kind := some .draft }
  else if begins "Request for Comments" left then
    { f with
      header := { h with rfcNumber := if value.isEmpty then none else some value }
      kind := some .rfc }
  else if begins "Intended" label then
    { f with header := { h with intendedStatus := some (statusText value) } }
  else if begins "Obsoletes" label then
    { f with header := { h with obsoletes := Citation.numbersIn value } }
  else if begins "Updates" label then
    { f with header := { h with updates := Citation.numbersIn value } }
  else if begins "Category" label then
    { f with header := { h with category := some (statusText value) } }
  else if begins "ISSN" label then { f with header := { h with issn := some value } }
  else if begins "Expires" label then
    match Calendar.WrittenDate.readDate? value with
    | some d => { f with header := { h with expires := some d } }
    | none => f
  else f

/-- The authors at the end who have no organization yet get this one. -/
def affiliate (organization : Text) (authors : List Author) : List Author :=
  let waiting := (authors.reverse.takeWhile (·.organization.isNone)).length
  let settled := authors.length - waiting
  authors.take settled ++
    (authors.drop settled).map fun a => { a with organization := some organization }

def setOrganization (organization : Text) (f : FrontPage) : FrontPage :=
  { f with header := { f.header with authors := affiliate organization f.header.authors } }

def addAuthor (name : Text) (f : FrontPage) : FrontPage :=
  { f with header := { f.header with authors := f.header.authors ++ [⟨name, none⟩] } }

/-- An entry of the right column: the date, which ends the column, or an author or an organization.  A
line without one ends the affiliation of the authors before it. -/
def readRight (num : Nat) (right : Text) (f : FrontPage) : FrontPage :=
  if f.header.date.isSome then f
  else match Calendar.WrittenDate.read? right with
    | some d => { f with header := { f.header with date := some d } }
    | none =>
      let f :=
        if Layout.authorName.leads right then
          let f :=
            if !f.header.authors.isEmpty && num > f.lastRightLine + 1 then f.setOrganization [] else f
          f.addAuthor right
        else if !f.header.authors.isEmpty then f.setOrganization right
        else f.addAuthor right
      { f with lastRightLine := num }

/-- The two columns of a line, trimmed, if it has two. -/
def columns? (line : Text) : Option (Text × Text) := do
  let m ← Layout.columns.match? line
  let left ← m.group? 1
  let right ← m.group? 2
  pure (Text.trim left, Text.trim right)

/-- The first line: the source on the left. -/
def readFirst (num : Nat) (stripped : Text) (f : FrontPage) : FrontPage :=
  match columns? stripped with
  | some (left, right) =>
    let f := { f with header := { f.header with source := some left } }
    (f.readRight num right).readLeft left
  | none =>
    let f := { f with header := { f.header with source := some stripped } }
    f.readLeft stripped

/-- A date alone on a line is the date of the document, if there is none yet. -/
def readLoneDate (left : Text) (f : FrontPage) : FrontPage :=
  if f.header.date.isSome then f
  else match Calendar.WrittenDate.read? left with
    | some d => { f with header := { f.header with date := some d } }
    | none => f

/-- A later line of the front page. -/
def readLine (num : Nat) (line stripped : Text) (f : FrontPage) : FrontPage :=
  let (left, right) := (columns? (Text.trimRight line)).getD (stripped, [])
  let f := if left.isEmpty then f else f.readLeft left
  if !right.isEmpty then f.readRight num right
  else if !left.isEmpty then f.readLoneDate left
  else f

end FrontPage
end DraftLint.Plain
