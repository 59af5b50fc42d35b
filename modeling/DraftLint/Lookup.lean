import DraftLint.Inquiry
import DraftLint.Json.Plain
import DraftLint.Json.Reader
import DraftLint.Registry.Page
import DraftLint.Site

/-!
# Looking documents up

What the sites of the editor and of the tracker tell about a document.  A page that cannot be had, or
that makes no sense, tells nothing.
-/

namespace DraftLint.Lookup

/-- What is known about an RFC. -/
structure Rfc where
  /-- The status, which should be a text but may be anything. -/
  status : Option Json
  obsoletedBy : List Text
  updatedBy : List Text

/-- What is known about a draft. -/
structure Draft where
  /-- The state, which should be a text but may be anything. -/
  state : Option Json

/-- The fields of a page that holds a record. -/
def record? (r : Reply) : Option Json :=
  (r.bind Json.Reader.read?).filter Json.isObject

/-- A field of a record, if it says anything. -/
def field? (name : String) (j : Json) : Option Json :=
  (j.get? name).filter (!·.isVoid)

/-- The items of a value as texts: those of a list, the characters of a text, or the names of fields. -/
def items : Json → Except Failure (List Text)
  | .array vs => .ok (vs.map Json.plain)
  | .text t => .ok (t.map fun c => [c])
  | .object fields => .ok (fields.map (·.1))
  | _ => .error .notAList

/-- The names in a list of documents, without blanks around them and without empty ones. -/
def names (v : Json) : Except Failure (List Text) := do
  if v.isVoid then return []
  return ((← items v).map Text.trim).filter (!·.isEmpty)

/-- The names in a field of a record. -/
def namesIn (name : String) (j : Json) : Except Failure (List Text) :=
  names ((j.get? name).getD .null)

def Rfc.ofReply (r : Reply) : Except Failure (Option Rfc) :=
  match record? r with
  | none => .ok none
  | some j => do
    let obsoletedBy ← namesIn "obsoleted_by" j
    let updatedBy ← namesIn "updated_by" j
    return some ⟨field? "status" j, obsoletedBy, updatedBy⟩

def Draft.ofReply (r : Reply) : Option Draft :=
  (record? r).map fun j => ⟨field? "state" j⟩

/-- The page about an RFC. -/
def rfcPage (number : Int) : String :=
  Site.rfcData (Text.ofInt number)

/-- What is known about each of the RFCs with these numbers. -/
def rfcs (numbers : List Text) : Inquiry (Except Failure (List (Option Rfc))) := do
  let known := numbers.map Text.integer?
  let replies ← Inquiry.pages (known.filterMap (·.map rfcPage))
  return if known.all Option.isSome then replies.mapM Rfc.ofReply else .error .notANumber

/-- What is known about an RFC. -/
def rfc (number : Text) : Inquiry (Except Failure (Option Rfc)) := do
  let found ← rfcs [number]
  return found.map fun rs => rs.head?.join

/-- What is known about each of the drafts with these names. -/
def drafts (names : List Text) : Inquiry (List (Option Draft)) := do
  let replies ← Inquiry.pages (names.map Site.draftData)
  return replies.map Draft.ofReply

/-- The labels in the registry of downward references, if it can be had. -/
def registry : Inquiry (Except Failure (Option (List Text))) := do
  match ← Inquiry.page Site.downrefRegistry with
  | none => return .ok none
  | some page => return (Registry.labels page).map some

/-- Those of the labels that are in the registry. -/
def downrefs (labels : List Text) : Inquiry (Except Failure (List Text)) := do
  match ← registry with
  | .error e => return .error e
  | .ok none => return .ok []
  | .ok (some []) => return .ok []
  | .ok (some known) =>
    return labels.filterM fun l => do return known.contains (← Registry.normalize l)

end DraftLint.Lookup
