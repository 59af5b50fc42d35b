import DraftLint.Document
import DraftLint.Verdict

/-!
# Names of files

The name of a file against the name that the document gives itself, and against the grammar of names.
-/

namespace DraftLint.Rules

open Finding Issue

/-- The name of an RFC, by its number. -/
def rfcName (number : Text) : Text :=
  "rfc".toList ++ number

/-- The name that markup gives the document, with its revision. -/
def markupName? (root : Markup.Element) : Option Text :=
  root.filled? "docName" <|> (root.filled? "number").map fun n => rfcName (Text.trim n)

/-- The name that the front page gives the document, with its revision. -/
def plainName? (d : Plain.Document) : Option Text :=
  match d.kind, d.scan.page.header.rfcNumber.filter (!·.isEmpty) with
  | .rfc, some n => some (rfcName n)
  | _, _ => d.scan.slug.filter fun s => Text.startsWith "draft-".toList s

/-- The name that the document gives itself, without revision. -/
def declaredName? (d : Document) : Option Text :=
  let name := match d with
    | .text d => plainName? d
    | .markup d => markupName? d.root
  (name.map fun n => FileName.withoutRevision (Text.trim n)).filter (!·.isEmpty)

/-- The name of the file, if it has one. -/
def givenName? (d : Document) : Option Text :=
  d.fileName.filter (!·.isEmpty)

/-- A finding if something is wrong. -/
def objectUnless (ok : Bool) (i : Issue) : List Finding :=
  if ok then [] else [anywhere i]

/-- The name of the file has only small letters, digits and dashes, the extension of its format, not too
many characters, and is the name of the document. -/
def fileName (d : Document) : Verdict :=
  .of <| match givenName? d with
    | none => []
    | some path =>
      let (base, extension) := FileName.split path
      let name := FileName.base path
      objectUnless (FileName.plain.leads base) (fileNameCharacters base) ++
        objectUnless (extension == d.format.name.toList) (fileNameExtension extension d.format) ++
        objectUnless (name.length ≤ maxFileNameLength) (fileNameLength name) ++
        match declaredName? d with
        | some declared =>
          objectUnless (FileName.withoutRevision base == declared) (fileNameOther base declared)
        | none => []

/-- The file of a draft is named as drafts are. -/
def draftName (d : Document) : Verdict :=
  .of <| match givenName? d with
    | some path =>
      let base := (FileName.split path).1
      if d.kind = .draft then objectUnless (!FileName.isMalformed base) (malformedDraftName base) else []
    | none => []

end DraftLint.Rules
