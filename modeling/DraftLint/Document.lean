import DraftLint.FileName
import DraftLint.Markup.Document
import DraftLint.Plain.Document

/-!
# Documents

A document in either format.
-/

namespace DraftLint

inductive Document where
  | text (d : Plain.Document)
  | markup (d : Markup.Document)

namespace Document

def format : Document → Format
  | text _ => .text
  | markup _ => .markup

def fileName : Document → Option Text
  | text d => d.fileName
  | markup d => d.fileName

def kind : Document → Kind
  | text d => d.kind
  | markup d => d.kind

/-- The document that octets in a format encode. -/
def ofOctets (f : Format) (fileName : Option Text) (bs : Octets) : Except Unreadable Document :=
  match f with
  | .text => (Plain.Document.ofOctets fileName bs).map text
  | .markup => (Markup.Document.ofOctets fileName bs).map markup

/-- The document that a file holds, in the format that its name or its content shows. -/
def ofFile (path : Option Text) (bs : Octets) : Except Unreadable Document :=
  let name := (path.filter (!·.isEmpty)).map FileName.base
  ofOctets (FileName.format name bs) name bs

end Document
end DraftLint
