import DraftLint.Kind
import DraftLint.Markup.Encoding
import DraftLint.Markup.ExternalEntity
import DraftLint.Markup.Reader
import DraftLint.Unreadable

/-!
# Marked-up documents

A document from its octets.
-/

namespace DraftLint.Markup

structure Document where
  fileName : Option Text
  root : Element
  entities : List ExternalEntity
  kind : Kind

namespace Document

/-- The kind of a document, by what the root element says and the name of the file. -/
def kindOf (fileName : Option Text) (root : Element) : Kind :=
  let name := Text.lower (fileName.getD [])
  let numbered := (root.filled? "number").isSome
  let named := (root.filled? "docName").isSome
  if numbered || (Text.startsWith "rfc".toList name && !named) then .rfc
  else if named || Text.startsWith "draft-".toList name then .draft
  else .unknown

/-- The document that octets encode. -/
def ofOctets (fileName : Option Text) (bs : Octets) : Except Unreadable Document :=
  let (cleaned, entities) := ExternalEntity.extract bs
  match (decode? cleaned).bind Element.ofText? with
  | some root => .ok ⟨fileName, root, entities, kindOf fileName root⟩
  | none => .error .notWellFormed

end Document
end DraftLint.Markup
