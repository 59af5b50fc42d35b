import DraftLint.Document
import DraftLint.Markup.Bibliography
import DraftLint.Verdict

/-!
# Required parts

The parts that every document needs, what they may hold, and the authors.  In plain text the parts are
found by their headings, in markup by the elements and their titles.
-/

namespace DraftLint.Rules

open Finding Issue Pattern

/-- What is wrong if a part is not there.  A published RFC may have lost its IANA considerations. -/
def missing (kind : Kind) : Part → Issue
  | .iana => if kind = .rfc then missingIanaInRfc else missingPart .iana
  | p => missingPart p

/-! ## Plain text -/

/-- The part is there and not empty; without front page or title nothing can be said about it. -/
def plainPart (d : Plain.Document) (p : Part) : List Finding :=
  let extent := d.scan.extents.get p
  if !d.hasHeader then [anywhere documentStructure]
  else if !extent.found then [anywhere (missing d.kind p)]
  else if ((d.scan.content.get p).getD []).isEmpty then [onLines (emptyPart p) [extent.start]]
  else []

/-! ## Markup -/

/-- Elements that a section may hold. -/
def sectionChildren : List String :=
  ["artset", "artwork", "aside", "blockquote", "contact", "dl", "figure", "iref", "name", "ol",
    "section", "sourcecode", "t", "table", "texttable", "ul"]

/-- The titles by which a part is known. -/
def titles : Part → List String
  | .introduction => ["introduction", "overview", "background"]
  | .security => ["security considerations"]
  | .iana => ["iana considerations"]
  | _ => []

/-- A title of the part, whatever the case of its letters. -/
def titlePattern (p : Part) : Pattern :=
  ignoreCase <| oneOf ((titles p).map fun t => wholeLine [lit t])

/-- The sections of the first level. -/
def topSections (root : Markup.Element) : List Markup.Element :=
  root.grandchildren "middle" "section" ++ root.grandchildren "back" "section"

/-- The first section of the first level that has a title of the part. -/
def findSection? (root : Markup.Element) (p : Part) : Option Markup.Element :=
  (topSections root).find? fun s =>
    (s.title?.filter (!·.isEmpty)).any fun t => (titlePattern p).occursIn (Text.trim t)

/-- The section of a part holds something, and nothing unsuited. -/
def sectionContent (p : Part) (s : Markup.Element) : List Finding :=
  let children := s.children.filter fun c => !c.isNamed "name"
  (if children.isEmpty then [onLines (partWithoutContent p) [s.line]] else []) ++
    (children.filter fun c => !Text.isOneOf c.name sectionChildren).map fun c =>
      onLines (unsuitedElement p c.name) [c.line]

def markupPart (d : Markup.Document) (p : Part) : List Finding :=
  match findSection? d.root p with
  | none => [anywhere (missing d.kind p)]
  | some s => sectionContent p s

/-- A part that both formats have as a section. -/
def part (p : Part) : Document → Verdict
  | .text d => .of (plainPart d p)
  | .markup d => .of (markupPart d p)

/-- The abstract of a document. -/
def abstract? (root : Markup.Element) : Option Markup.Element :=
  (root.grandchildren "front" "abstract").head?

/-- An abstract holds paragraphs and lists only, and no references. -/
def abstractContent (a : Markup.Element) : List Finding :=
  let references := a.inner.map (·.element) |>.filter (·.isNamed "xref")
  (if a.children.isEmpty then [onLines (partWithoutContent .abstract) [a.line]] else []) ++
    ((a.children.filter fun c => !Text.isOneOf c.name abstractChildren).map fun c =>
      onLines (unsuitedElement .abstract c.name) [c.line]) ++
    if references.isEmpty then []
    else [onLines (abstractWithReferences references.length) (references.map (·.line))]

def abstract : Document → Verdict
  | .text d => .of (plainPart d .abstract)
  | .markup d => .of <| match abstract? d.root with
    | none => [anywhere (missingPart .abstract)]
    | some a => abstractContent a

/-! ## Authors -/

/-- A document has few authors. -/
def fewAuthors (count : Nat) (f : Format) : List Finding :=
  if count > maxAuthors then [anywhere (manyAuthors count f)] else []

/-- The name by which messages call an author. -/
def authorName (a : Markup.Element) : Text :=
  match a.filled? "fullname" with
  | some name => name
  | none =>
    let parts := ["initials", "surname"].filterMap a.filled?
    if parts.isEmpty then "An author".toList else Text.join [' '] parts

/-- An author has a name. -/
def namedAuthor (a : Markup.Element) : List Finding :=
  if (a.filled? "fullname").isSome then []
  else if ["asciiFullname", "asciiInitials", "asciiSurname"].any fun n => (a.filled? n).isSome then
    [onLines (onlyAsciiName (authorName a)) [a.line]]
  else if ["initials", "surname"].any fun n => (a.filled? n).isSome then
    [onLines (noFullName (authorName a)) [a.line]]
  else []

/-- An author has an organization, a name, and no role but that of an editor. -/
def author (a : Markup.Element) : List Finding :=
  let organization := Text.trim ((a.childText? "organization").getD [])
  (if organization.isEmpty then [onLines (noOrganization (authorName a)) [a.line]] else []) ++
    namedAuthor a ++
    match a.attribute? "role" with
    | none => []
    | some role =>
      if role == "editor".toList then [] else [onLines (authorRole (authorName a) role) [a.line]]

def authors : Document → Verdict
  | .text d => .of (plainPart d .authors ++ fewAuthors d.scan.page.header.authors.length .text)
  | .markup d =>
    let found := d.root.grandchildren "front" "author"
    .of <| if found.isEmpty then [anywhere noAuthors]
      else fewAuthors found.length .markup ++ found.flatMap author

/-! ## References -/

/-- The title of a section of references is one of those allowed. -/
def titledReferences (s : Markup.Element) : List Finding :=
  let title := Text.trim (s.title?.getD [])
  if title.isEmpty then [onLines untitledReferences [s.line]]
  else if Text.isOneOf title referencesTitles then []
  else [onLines (referencesTitle title) [s.line]]

def references : Document → Verdict
  | .text d =>
    let extent := d.scan.extents.references
    .of <| if extent.found && (d.scan.content.references.getD []).isEmpty then
        [onLines (emptyPart .references) [extent.start]]
      else []
  | .markup d => .of (d.root.referenceSections.flatMap fun o => titledReferences o.element)

/-- The kind of a reference is known. -/
def isCategorized (e : Plain.Entry) : Bool :=
  e.kind == some .normative || e.kind == some .informative

/-- References are listed under a heading that tells their kind. -/
def categories : Document → Verdict
  | .markup _ => .clean
  | .text d =>
    let entries := d.scan.items.listedRfcs ++ d.scan.items.listedLabels
    let count := (entries.filter fun e => !isCategorized e).length
    let extent := d.scan.extents.references
    .of <| if count = 0 then []
      else if extent.found then [onLines (uncategorizedReferences count) [extent.start]]
      else [anywhere (uncategorizedReferences count)]

end DraftLint.Rules
