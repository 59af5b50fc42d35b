import DraftLint.Citation
import DraftLint.Document
import DraftLint.Lookup
import DraftLint.Markup.Bibliography
import DraftLint.Status
import DraftLint.Verdict

/-!
# Documents referred to

What the sites of the editor and of the tracker say about the documents that are listed as references.
-/

namespace DraftLint.Rules

open Finding Issue

/-- The numbers of the RFCs listed as references of a kind. -/
def referencedRfcs (k : ReferenceKind) : Document → Except Failure (List Text)
  | .text d => .ok <|
    (d.scan.items.listedRfcs.filter fun e => e.kind == some k && Text.allDigits e.value).map (·.value)
  | .markup d => do
    let labels ← d.root.bibliography
    return labels.filterMap fun (label, kind) =>
      if kind == k && Text.startsWith "RFC ".toList label then (Text.words label)[1]? else none

/-- The names of the drafts listed as references. -/
def referencedDrafts : Document → Except Failure (List Text)
  | .text d => .ok (d.scan.items.listedLabels.filterMap fun e => Citation.draftName? e.value)
  | .markup d => do
    let labels ← d.root.bibliography
    return labels.filterMap fun (label, _) =>
      if Text.startsWith "draft-".toList label then some label else none

/-- The labels to be looked for in the registry of downward references. -/
def registryLabels : Document → Except Failure (List Text)
  | .text d => do
    let drafts ← referencedDrafts (.text d)
    return (d.scan.items.listedRfcs.map fun e => "RFC ".toList ++ e.value) ++ drafts
  | .markup d => do
    let labels ← d.root.bibliography
    return (labels.map (·.1)).filter fun l =>
      Text.startsWith "RFC ".toList l || Text.startsWith "draft-".toList l

/-- No document listed is in the registry of downward references. -/
def downrefs (d : Document) : Inquiry Verdict := do
  match registryLabels d with
  | .error e => return .failed e
  | .ok labels =>
    let found ← Lookup.downrefs labels
    return .onValue found fun ls => .of (ls.map fun l => anywhere (inDownrefRegistry l))

/-- The status of a normative reference is a recognized one. -/
def recognized (k : ReferenceKind) (number : Text) (status : Json) : Verdict :=
  if k = .normative then
    match status with
    | .text t =>
      if (Status.ofText? t).isSome then .clean else .of [anywhere (unrecognizedStatus number t)]
    | _ => .failed .notAText
  else .clean

/-- A reference has a status, and nothing has taken its place. -/
def current (k : ReferenceKind) (number : Text) (found : Option Lookup.Rfc) : Verdict :=
  match found with
  | none => .of [anywhere (undefinedStatus k number)]
  | some r =>
    match r.status with
    | none => .of [anywhere (undefinedStatus k number)]
    | some status =>
      (recognized k number status).andThen <| .of <|
        if r.obsoletedBy.isEmpty then [] else [anywhere (obsoleteReference k number r.obsoletedBy)]

/-- The references of a kind are current. -/
def currentRfcs (k : ReferenceKind) (d : Document) : Inquiry Verdict := do
  match referencedRfcs k d with
  | .error e => return .failed e
  | .ok numbers =>
    let found ← Lookup.rfcs numbers
    return .onValue found fun rs => .all ((numbers.zip rs).map fun (n, r) => current k n r)

/-- A draft has a state, and was not published. -/
def unpublished (name : Text) (found : Option Lookup.Draft) : Verdict :=
  match found.bind (·.state) with
  | none => .of [anywhere (undefinedState name)]
  | some (.text t) =>
    if Text.lower t == "rfc".toList then .of [anywhere (publishedDraft name)] else .clean
  | some _ => .failed .notAText

/-- The drafts referred to exist and were not published. -/
def unpublishedDrafts (d : Document) : Inquiry Verdict := do
  match referencedDrafts d with
  | .error e => return .failed e
  | .ok names =>
    let found ← Lookup.drafts names
    return .all ((names.zip found).map fun (n, r) => unpublished n r)

end DraftLint.Rules
