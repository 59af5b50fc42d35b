import DraftLint.Citation
import DraftLint.Document
import DraftLint.Lookup
import DraftLint.Rules.Structure
import DraftLint.Status

/-!
# Category and succession

The category of a document, and the earlier documents that it obsoletes or updates.
-/

namespace DraftLint.Rules

open Finding Issue

/-- The categories by their codes. -/
def categoryCodes : List String :=
  ["std", "bcp", "info", "exp", "historic"]

/-- An RFC states its category; a draft states what it is meant for instead. -/
def category : Document → Verdict
  | .text d =>
    .of <| if d.kind ≠ .rfc then []
      else match d.scan.page.header.category.filter (!·.isEmpty) with
        | none => [anywhere (missingCategory .text)]
        | some c => if (Status.ofText? c).isSome then [] else [anywhere (unknownCategory c)]
  | .markup d =>
    let root := d.root
    .of <| match root.filled? "category" with
      | none =>
        if Text.startsWith "draft-".toList (root.attributeText "docName") then []
        else [onLines (missingCategory .markup) [root.line]]
      | some c =>
        if Text.isOneOf c categoryCodes then [] else [onLines unknownCategoryCode [root.line]]

/-- The items that are not among others, each once. -/
def difference {α : Type} [BEq α] (items others : List α) : List α :=
  Text.distinct (items.filter fun x => !others.contains x)

/-- What the attributes state and what the abstract says. -/
structure Claims where
  stated : List Text
  explained : List Text

/-- What a document says about the documents that it changes in one way. -/
def claims (root : Markup.Element) (r : Relation) : Claims :=
  let text := match abstract? root with
    | some a => Text.squeeze (Text.join [' '] a.pieces)
    | none => []
  { stated := Citation.numbersIn (root.attributeText (verb r))
    explained := Citation.rfcNumbers text <| match r with
      | .obsoletes => Citation.obsoletesStatement
      | .updates => Citation.updatesStatement }

/-- Attributes and abstract agree. -/
def agreement (r : Relation) (c : Claims) : List Finding :=
  ((difference c.stated c.explained).map fun n => anywhere (notInAbstract r n)) ++
    (difference c.explained c.stated).map fun n => anywhere (onlyInAbstract r n)

/-- A document that is changed exists and was not changed so before. -/
def changeable (r : Relation) (number : Text) (found : Option Lookup.Rfc) : List Finding :=
  match found with
  | none => [anywhere (relatedNotFound r number)]
  | some rfc =>
    if !rfc.obsoletedBy.isEmpty then [anywhere (relatedObsolete r number rfc.obsoletedBy)]
    else if r = .updates && !rfc.updatedBy.isEmpty then [anywhere (alreadyUpdated number rfc.updatedBy)]
    else []

/-- The documents changed in one way can be changed. -/
def changeables (r : Relation) (c : Claims) (found : List (Option Lookup.Rfc)) : List Finding :=
  (c.stated.zip found).flatMap fun (n, rfc) => changeable r n rfc

/-- What the document itself says about the documents that it changes agrees. -/
def consistentSuccession : Document → Verdict
  | .text _ => .clean
  | .markup d => .of <|
    agreement .obsoletes (claims d.root .obsoletes) ++ agreement .updates (claims d.root .updates)

/-- The documents that are changed can be changed.  Those updated are looked up after those obsoleted. -/
def possibleSuccession : Document → Inquiry Verdict
  | .text _ => return .clean
  | .markup d => do
    let obsoleted := claims d.root .obsoletes
    let updated := claims d.root .updates
    match ← Lookup.rfcs obsoleted.stated with
    | .error e => return .failed e
    | .ok os =>
      let foundUpdated ← Lookup.rfcs updated.stated
      return .onValue foundUpdated fun us =>
        .of (changeables .obsoletes obsoleted os ++ changeables .updates updated us)

end DraftLint.Rules
