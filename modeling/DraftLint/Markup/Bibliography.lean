import DraftLint.Heading
import DraftLint.Markup.Namespace
import DraftLint.Markup.Tree
import DraftLint.Registry
import DraftLint.Citation

/-!
# Bibliographies

The sections of references in a marked-up document, and the labels of the documents that they list.
-/

namespace DraftLint.Markup

open Pattern

/-- The file of an RFC; the group is its number. -/
def rfcFile : Pattern :=
  all [lit "reference.RFC.", group 1 (times 4 decimal), lit ".xml"]

/-- The file of a draft; the group is its label. -/
def draftFile : Pattern :=
  all [lit "reference.", group 1 (seq (lit "I-D.") (many (one .notNewline))), lit ".xml"]

/-- An anchor that names an RFC; the group is its number. -/
def rfcAnchor : Pattern :=
  ignoreCase <| wholeLine [lit "RFC", maybe space, group 1 decimals]

/-- The name of a draft without version, if the label names one. -/
def draftLabel? (label : Text) : Option Text :=
  (Citation.draftName? label).filter fun name => Text.startsWith "draft-".toList (Text.lower name)

/-- The name of a draft, or the label as it is. -/
def draftOr (label : Text) : Text :=
  (draftLabel? label).getD label

namespace Element

/-- The label of the document that an included file describes, empty if that cannot be told. -/
def includedLabel (e : Element) : Except Failure Text :=
  let href := e.attributeText "href"
  match (rfcFile.search? href).bind (·.group? 1) with
  | some number => Registry.ofNumeral number
  | none => match (draftFile.search? href).bind (·.group? 1) with
    | some label => .ok ((draftLabel? label).getD [])
    | none => .ok []

/-- The label that series information gives, the first that says something. -/
def seriesLabel? : List Element → Option (Except Failure Text)
  | [] => none
  | info :: rest =>
    let value := Text.trim (info.attributeText "value")
    if value.isEmpty then seriesLabel? rest
    else match (info.attribute? "name").map Text.str with
      | some "RFC" => some (if Text.allDigits value then Registry.ofNumeral value else .ok [])
      | some "Internet-Draft" => some (.ok (draftOr value))
      | _ => seriesLabel? rest

/-- The label of the document that an entry describes: `RFC` and a number, the name of a draft without
version, or whatever the anchor says.  It is empty if it cannot be told. -/
def documentLabel (e : Element) : Except Failure Text :=
  if e.name == includeName then e.includedLabel
  else
    let anchor := Text.trim (e.attributeText "anchor")
    match (rfcAnchor.match? anchor).bind (·.group? 1) with
    | some number => Registry.ofNumeral number
    | none => (seriesLabel? (e.childrenNamed "seriesInfo")).getD (.ok (draftOr anchor))

/-- The title of a section: its `name` element, or else its `title` attribute. -/
def title? (e : Element) : Option Text :=
  e.childText? "name" <|> e.attribute? "title"

end Element

/-- The kind of references that the title of a section announces. -/
def kindOfTitle (title : Option Text) : ReferenceKind :=
  let title := Text.lower (title.getD [])
  if Text.contains "normative".toList title then .normative
  else if Text.contains "informative".toList title then .informative
  else .unclassified

/-- The kind of a section of references.  A section without a kind of its own takes that of the section
around it. -/
def Occurrence.referenceKind (o : Occurrence) : ReferenceKind :=
  match kindOfTitle o.element.title?, o.parent with
  | .unclassified, some p => if p.isNamed "references" then kindOfTitle p.title? else .unclassified
  | kind, _ => kind

namespace Element

/-- The sections of references, nested ones too. -/
def referenceSections (root : Element) : List Occurrence :=
  (root.childrenNamed "back").flatMap fun back =>
    back.inner.filter fun o => o.element.isNamed "references"

/-- The element is an entry of a section of references. -/
def isEntry (e : Element) : Bool :=
  e.isNamed "reference" || e.isNamed "referencegroup" || e.name == includeName

/-- The entries with the kind of their section. -/
def entries (root : Element) : List (Element × ReferenceKind) :=
  root.referenceSections.flatMap fun o =>
    (o.element.children.filter isEntry).map fun e => (e, o.referenceKind)

/-- The label of an entry is added, unless it is empty or there already. -/
def addLabel (labels : List (Text × ReferenceKind)) (entry : Element × ReferenceKind) :
    Except Failure (List (Text × ReferenceKind)) := do
  let label ← entry.1.documentLabel
  return if label.isEmpty || labels.any (·.1 == label) then labels else labels ++ [(label, entry.2)]

/-- The labels of all documents listed, with the kind of the section that lists each first. -/
def bibliography (root : Element) : Except Failure (List (Text × ReferenceKind)) :=
  root.entries.foldlM addLabel []

end Element
end DraftLint.Markup
