import DraftLint.Markup.Namespace
import DraftLint.Rules.Vocabulary

/-!
# Cross-references

Every cross-reference has a target, and something in the document, or in a file that it pulls in, is
that target.
-/

namespace DraftLint.Rules

open Finding Issue Pattern

/-- The file of a reference; the group is the label. -/
def referenceFile : Pattern :=
  all [lit "reference.", group 1 (atLeastOnce (one .notNewline)), lit ".xml", lineEnd]

/-- The label without the first full stop, if it is that of an RFC. -/
def fileAnchor (label : Text) : Text :=
  if Text.startsWith "RFC.".toList label then "RFC".toList ++ label.drop 4 else label

/-- The anchor that comes with a file that is pulled in. -/
def anchorOfFile? (href : Text) : Option Text :=
  ((referenceFile.search? href).bind (·.group? 1)).map fileAnchor

/-- The attributes that make an element a target. -/
def targetAttributes : List String :=
  ["anchor", "pn", "slugifiedName"]

/-- The targets that the elements of the document are. -/
def elementTargets (root : Markup.Element) : List Text :=
  root.all.flatMap fun e => targetAttributes.filterMap e.filled?

/-- The places of the files that the document pulls in. -/
def pulledIn (d : Markup.Document) : List Text :=
  ((d.root.all.filter fun e => e.name == Markup.includeName).map (·.attributeText "href")) ++
    d.entities.map (·.url)

/-- All targets that a cross-reference may have. -/
def targets (d : Markup.Document) : List Text :=
  elementTargets d.root ++ (pulledIn d).filterMap anchorOfFile?

/-- The cross-references of a document without target. -/
def withoutTarget (d : Markup.Document) : List Markup.Element :=
  (d.root.allNamed "xref").filter fun e => (e.filled? "target").isNone

/-- The cross-references whose target is nowhere. -/
def unmatched (d : Markup.Document) : List Markup.Element :=
  let known := targets d
  (d.root.allNamed "xref").filter fun e => (e.filled? "target").any fun t => !known.contains t

/-- Every cross-reference has a target that exists. -/
def crossReferences : Document → Verdict :=
  markupOnly fun d =>
    let missing := withoutTarget d
    let lost := unmatched d
    about missing (xrefWithoutTarget missing.length) ++
      about lost (xrefTargets lost.length (lost.filterMap (·.filled? "target")))

/-- No entity outside the document is declared. -/
def externalEntities : Document → Verdict :=
  markupOnly fun d => d.entities.map fun e => anywhere (externalEntity e.name e.kind e.url)

end DraftLint.Rules
