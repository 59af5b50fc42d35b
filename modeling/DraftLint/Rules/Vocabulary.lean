import DraftLint.Citation
import DraftLint.Layout
import DraftLint.Rules.Structure

/-!
# Vocabulary of markup

Elements that are out of use, and the values that attributes and elements of the vocabulary may have.
-/

namespace DraftLint.Rules

open Finding Issue

/-- A rule on markup alone. -/
def markupOnly (f : Markup.Document → List Finding) : Document → Verdict
  | .text _ => .clean
  | .markup d => .of (f d)

/-- A finding about elements, on the lines of all of them, if there are any. -/
def about (found : List Markup.Element) (i : Issue) : List Finding :=
  if found.isEmpty then [] else [onLines i (found.map (·.line))]

/-- Elements that are out of use. -/
def deprecatedNames : List String :=
  ["c", "facsimile", "format", "list", "postamble", "preamble", "relref", "spanx", "texttable",
    "ttcol", "vspace"]

/-- No element is out of use. -/
def deprecated : Document → Verdict :=
  markupOnly fun d =>
    let found := d.root.all.filter fun e => Text.isOneOf e.name deprecatedNames
    about found (deprecatedElements found.length (found.map (·.name)))

/-- The declarations of rights that are known. -/
def knownIpr : List String :=
  ["trust200902", "noModificationTrust200902", "noDerivativesTrust200902", "pre5378Trust200902"]

/-- Those that forbid derived works. -/
def restrictingIpr : List String :=
  ["noModificationTrust200902", "noDerivativesTrust200902"]

/-- The rights are declared in a known way, and leave a document of the standards stream open to
derived works. -/
def rights : Document → Verdict :=
  markupOnly fun d =>
    let root := d.root
    match root.attribute? "ipr" with
    | none => [onLines missingIpr [root.line]]
    | some ipr =>
      let stream := (root.attribute? "submissionType").getD "IETF".toList
      (if Text.isOneOf ipr knownIpr then [] else [onLines (unknownIpr ipr) [root.line]]) ++
        if stream == "IETF".toList && Text.isOneOf ipr restrictingIpr then
          [onLines (disallowedIpr ipr) [root.line]]
        else []

/-- The names of working groups say that they are groups. -/
def workgroups : Document → Verdict :=
  markupOnly fun d => (d.root.grandchildren "front" "workgroup").filterMap fun e =>
    let name := Text.trim e.leadText
    if name.isEmpty || Text.endsWith "Group".toList name then none
    else some (onLines (workgroupName name) [e.line])

/-- The marks around code are left to the renderer. -/
def codeMarkers : Document → Verdict :=
  markupOnly fun d =>
    let sources := (d.root.allNamed "sourcecode").filter fun e =>
      Layout.codeBegins.occursIn e.leadText && e.attribute? "markers" == some "true".toList
    let paragraphs := (d.root.allNamed "t").filter fun e => Layout.codeBegins.occursIn e.allText
    about sources (codeMarkersInSource sources.length) ++
      about paragraphs (codeMarkersInText paragraphs.length)

/-- Elements with running text, in which a citation could stand. -/
def runningElements : List String :=
  ["annotation", "blockquote", "dd", "dt", "li", "name", "refcontent", "t", "td", "th", "title"]

/-- The text at the start of an element and the text after it, as far as they are not blank. -/
def nearText (o : Markup.Occurrence) : Text :=
  Text.join [' '] ([o.element.leadText, o.tail].filter fun t => !(Text.trim t).isEmpty)

/-- What looks like a citation is a cross-reference. -/
def citations : Document → Verdict :=
  markupOnly fun d =>
    let found := d.root.walk.filterMap fun o =>
      if Text.isOneOf o.element.name runningElements then
        (Citation.lookalike.search? (nearText o)).map fun m => (o.element, m.text)
      else none
    about (found.map (·.1)) (citationLookalikes found.length (found.map (·.2)))

end DraftLint.Rules
