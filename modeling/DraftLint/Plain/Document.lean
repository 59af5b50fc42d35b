import DraftLint.Plain.Scan
import DraftLint.Unreadable
import DraftLint.Text.Lines
import DraftLint.Text.Utf8

/-!
# Reading plain text

A document from its octets or its text.
-/

namespace DraftLint

namespace Plain

/-- What the text as a whole shows, with its blanks squeezed. -/
structure Overview where
  explainsRfc2119 : Bool
  explainsRfc8174 : Bool
  resembles : Bool
  listedKeywords : List Text
  obsoletes : List Text
  updates : List Text
  codeLicense : Bool

namespace Overview

open RequirementLevel in
def ofText (body : Text) : Overview :=
  let t := Text.squeeze body
  { explainsRfc2119 := Wording.rfc2119.pattern.occursIn t || Wording.rfc2119ByTitle.pattern.occursIn t
    explainsRfc8174 := Wording.rfc8174.pattern.occursIn t
    resembles := RequirementLevel.resembles t
    listedKeywords := RequirementLevel.listed t
    obsoletes := Citation.rfcNumbers t Citation.obsoletesField
    updates := Citation.rfcNumbers t Citation.updatesField
    codeLicense := Layout.codeLicense.occursIn t }

end Overview

structure Document where
  fileName : Option Text
  body : Text
  scan : Scan
  overview : Overview
  kind : Kind

namespace Document

/-- The front page was found, and a title after it. -/
def hasHeader (d : Document) : Bool :=
  d.scan.extents.header.found && d.scan.title.isSome

def lines (d : Document) : List (Nat × Text) :=
  Text.numberedLines d.body

/-- The kind that the name of the file suggests. -/
def guessKind (fileName : Option Text) : Kind :=
  let name := Text.lower (fileName.getD [])
  if Text.startsWith "rfc".toList name then .rfc
  else if Text.startsWith "draft-".toList name then .draft
  else .unknown

/-- The text with line feeds for all line ends and spaces for tabs. -/
def prepare (t : Text) : Text :=
  Text.expandTabs (Text.unifyLineEnds t)

/-- The document that a text is. -/
def ofText (fileName : Option Text) (t : Text) : Document :=
  let body := prepare t
  let lines := Text.numberedLines body
  let scan := (Scan.initial.readLines lines).closePart lines.length
  { fileName, body, scan
    overview := .ofText body
    kind := scan.page.kind.getD (guessKind fileName) }

end Document

/-- The place of the octet after the given ones: the line by line feeds, the column in octets. -/
def badOctet (before : Octets) (octet : UInt8) : Unreadable :=
  let line := before.count 0x0A + 1
  let column := (before.reverse.takeWhile (· != 0x0A)).length + 1
  .badOctet line octet column

/-- The text that octets encode. -/
def decode (bs : Octets) : Except Unreadable Text :=
  match Utf8.decode bs with
  | .ok t => .ok t
  | .error n => .error (badOctet (bs.take n) ((bs.drop n).headD 0))

/-- The document that octets encode. -/
def Document.ofOctets (fileName : Option Text) (bs : Octets) : Except Unreadable Document :=
  (decode bs).map (Document.ofText fileName)

end Plain
end DraftLint
