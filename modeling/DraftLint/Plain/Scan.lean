import DraftLint.Plain.FrontPage
import DraftLint.Plain.Lexical

/-!
# Reading a document line by line

The front page ends at the first gap.  The next line is the title and the one after it the name of the
document.  After these, headings open and close the parts.
-/

namespace DraftLint.Plain

/-- What reading the lines so far has come to. -/
structure Scan where
  page : FrontPage
  items : Items
  pageCount : Nat
  title : Option Text
  titleLine : Nat
  slug : Option Text
  slugLine : Nat
  extents : Parts Extent
  /-- The lines of each part that was opened, without its heading. -/
  content : Parts (Option (List Text))
  /-- The part that is open. -/
  part : Option Part
  /-- The kind of references of the last heading. -/
  subsection : Option ReferenceKind
  inCode : Bool

namespace Scan

def initial : Scan :=
  ⟨⟨Header.empty, none, 0⟩, Items.empty, 1, none, 0, none, 0, .const Extent.none, .const none, none,
    none, false⟩

/-- A part starts at a heading, with nothing in it. -/
def openPart (p : Part) (num : Nat) (s : Scan) : Scan :=
  { s with
    extents := s.extents.set ⟨num, 0, false⟩ p
    content := s.content.set (some []) p
    part := some p }

/-- The open part ends on a line, though not before its heading. -/
def closePart (num : Nat) (s : Scan) : Scan :=
  match s.part with
  | none => s
  | some p =>
    let e := s.extents.get p
    let extents :=
      if e.closed then s.extents
      else s.extents.set { e with stop := max num e.start, closed := true } p
    { s with extents, part := none }

/-- A line belongs to the part that is open. -/
def keep (t : Text) (s : Scan) : Scan :=
  match s.part with
  | none => s
  | some p =>
    if (s.extents.get p).closed then s
    else { s with content := s.content.set ((s.content.get p).map (· ++ [t])) p }

def setHeaderExtent (e : Extent) (s : Scan) : Scan :=
  { s with extents := s.extents.set e .header }

/-- The first line of the front page. -/
def readFirst (num : Nat) (stripped : Text) (s : Scan) : Scan :=
  let s := s.setHeaderExtent { s.extents.header with start := num, stop := num }
  { s with page := s.page.readFirst num stripped }

/-- A line of the body: a heading, or text of the part that is open. -/
def readBody (num : Nat) (line stripped : Text) (s : Scan) : Scan :=
  if stripped == "Abstract".toList then (s.closePart (num - 1)).openPart .abstract num
  else
    let leavesAbstract := s.part == some .abstract && !s.extents.abstract.closed &&
      (Text.startsWith "Status of".toList stripped || !Text.startsWith [' ', ' '] line)
    let s := if leavesAbstract then s.closePart (num - 1) else s
    if Heading.endsPart stripped then
      let s := { s.closePart (num - 1) with subsection := none }
      match Heading.part? stripped with
      | none => s
      | some p =>
        let s := s.openPart p num
        if p = .references then { s with subsection := Heading.referenceKind? stripped } else s
    else if Heading.withinPart stripped then
      { s with subsection := Heading.referenceKind? stripped }.keep stripped
    else s.keep stripped

/-- Where the next line stands. -/
def setting (s : Scan) : Setting where
  inReferences := s.part == some .references
  kind := s.subsection
  inHeader := !(s.extents.header.found && s.extents.header.closed)
  inCode := s.inCode

/-- The items of a line are noted. -/
def note (num : Nat) (line stripped next : Text) (s : Scan) : Scan :=
  { s with
    items := s.items.addLine s.setting num line stripped next
    inCode := Items.codeAfter s.inCode stripped }

/-- A line finds its place: on the front page, as title or name, or in the body. -/
def place (num : Nat) (line stripped : Text) (s : Scan) : Scan :=
  let header := s.extents.header
  if !header.found then s.readFirst num stripped
  else if !header.closed then
    if num > header.stop + 1 then
      { s.setHeaderExtent { header with closed := true } with title := some stripped, titleLine := num }
    else
      let s := s.setHeaderExtent { header with stop := num }
      { s with page := s.page.readLine num line stripped }
  else if s.title.isSome && num == s.titleLine + 1 then
    { s with slug := some stripped, slugLine := num }
  else s.readBody num line stripped

/-- A line is read.  One with a form feed only starts a page, and blank ones are passed over. -/
def readLine (num : Nat) (line next : Text) (s : Scan) : Scan :=
  let stripped := Text.trim line
  if line.any (· == '\x0c') then { s with pageCount := s.pageCount + 1 }
  else if stripped.isEmpty then s
  else (s.note num line stripped next).place num line stripped

/-- Lines are read in turn, each with a view to the next. -/
def readLines (s : Scan) : List (Nat × Text) → Scan
  | [] => s
  | (num, line) :: rest =>
    readLines (s.readLine num line ((rest.head?.map (·.2)).getD [])) rest

end Scan
end DraftLint.Plain
