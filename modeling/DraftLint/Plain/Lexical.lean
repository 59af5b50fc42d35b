import DraftLint.Plain.Data
import DraftLint.Citation
import DraftLint.Layout
import DraftLint.RequirementLevel
import DraftLint.Address.Host

/-!
# Items on a line

Everything that is looked for on each line on its own: references, keywords, addresses and signs of bad
layout.
-/

namespace DraftLint.Plain

/-- Where a line stands. -/
structure Setting where
  /-- The line belongs to the references. -/
  inReferences : Bool
  /-- The kind of the subsection. -/
  kind : Option ReferenceKind
  /-- The front page does not end before the line. -/
  inHeader : Bool
  /-- A code block is open at the start of the line. -/
  inCode : Bool

namespace Items

/-- The entry is added unless its value is there already. -/
def addEntry (es : List Entry) (e : Entry) : List Entry :=
  if es.any (·.value == e.value) then es else es ++ [e]

def addText (ts : List Text) (t : Text) : List Text :=
  if ts.contains t then ts else ts ++ [t]

/-- The numbers of the RFCs that a text refers to. -/
def rfcsIn (t : Text) : List Text :=
  (Citation.rfc.scan t).filterMap fun m => m.group? 1 <|> m.group? 2

/-- The other labels in brackets. -/
def labelsIn (t : Text) : List Text :=
  (Citation.label.scan t).map Match.text

def keywordsIn (t : Text) : List Text :=
  (RequirementLevel.keyword.scan t).map Match.text

/-- The dotted quads, but for the number of a heading. -/
def quadsIn (t : Text) : List Text :=
  let heading := Heading.deepNumber.leads t
  ((Address.IPv4.pattern.scan t).filter fun m => !(heading && m.start.pos == 0)).map Match.text

/-- The year of the copyright notice. -/
def copyrightYear? (t : Text) : Option Nat := do
  let m ← Layout.copyright.search? t
  let year ← m.group? 1
  Text.natural? year

/-- References, which are listed or mentioned depending on where they stand. -/
def addReferences (s : Setting) (stripped : Text) (items : Items) : Items :=
  let rfcs := rfcsIn stripped
  let labels := labelsIn stripped
  if s.inReferences then
    { items with
      listedRfcs := rfcs.foldl (fun es v => addEntry es ⟨v, s.kind⟩) items.listedRfcs
      listedLabels := labels.foldl (fun es v => addEntry es ⟨v, s.kind⟩) items.listedLabels }
  else
    { items with
      mentionedRfcs := rfcs.foldl addText items.mentionedRfcs
      mentionedLabels := labels.foldl addText items.mentionedLabels }

/-- What does not depend on where the line stands. -/
def addWords (num : Nat) (line stripped : Text) (items : Items) : Items :=
  { items with
    citesRfc2119 := items.citesRfc2119 || Citation.rfc2119.occursIn stripped
    citesRfc8174 := items.citesRfc8174 || Citation.rfc8174.occursIn stripped
    keywords := items.keywords ++ (keywordsIn stripped).map (⟨·, num⟩)
    combinations := items.combinations ++
      (RequirementLevel.badCombination.scan line).map fun m => (m.text, ⟨num, some (m.start.pos + 1)⟩)
    hosts := items.hosts ++ Address.Host.namesIn stripped
    ipv4 := items.ipv4 ++ quadsIn stripped
    ipv6 := items.ipv6 ++ Address.IPv6.candidatesIn stripped
    copyrightYears := items.copyrightYears ++ (copyrightYear? stripped).toList }

/-- The line opens a code block, and it does not close one. -/
def codeAfter (before : Bool) (stripped : Text) : Bool :=
  (before || Layout.codeBegins.occursIn stripped) && !Layout.codeEnds.occursIn stripped

/-- Signs of bad layout.  Those of code and of broken words count outside code blocks only. -/
def addLayout (s : Setting) (num : Nat) (line stripped next : Text) (items : Items) : Items :=
  let wide := !s.inHeader && Layout.wideSpace.occursIn stripped && !Layout.pageHeader.leads stripped
  let outside := !codeAfter s.inCode stripped
  let comment := if outside then Layout.comment.search? line else none
  let broken := outside && !s.inHeader && Layout.brokenWord.occursIn stripped &&
    Layout.goesOn.leads next
  { items with
    wideLines := items.wideLines ++ (if wide then [⟨num, some line.length⟩] else [])
    hasCode := items.hasCode || Layout.codeBegins.occursIn stripped
    comments := items.comments ++ (comment.map fun m => ⟨num, some (m.start.pos + 1)⟩).toList
    brokenWords := items.brokenWords ++
      (if broken then [⟨num, some (Text.trimRight line).length⟩] else []) }

/-- The items of a line are added. -/
def addLine (s : Setting) (num : Nat) (line stripped next : Text) (items : Items) : Items :=
  ((items.addReferences s stripped).addWords num line stripped).addLayout s num line stripped next

end Items
end DraftLint.Plain
