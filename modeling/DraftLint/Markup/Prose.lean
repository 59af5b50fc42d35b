import DraftLint.Markup.Tree

/-!
# Running text

The text of a document as a reader sees it, without code and artwork, and with every empty
cross-reference shown as its target in brackets.
-/

namespace DraftLint.Markup

/-- Code or artwork, which is not running text. -/
def Node.isFigure : Node → Bool
  | .element tag _ => tag.name == "sourcecode".toList || tag.name == "artwork".toList
  | _ => false

/-- The target of a cross-reference that holds nothing to be shown. -/
def emptyReference? (tag : Tag) (content : List Node) : Option Text :=
  if tag.name == "xref".toList && content.all Node.isFigure then
    (Element.mk tag content).filled? "target"
  else none

mutual

def Node.prose : Node → Text
  | .text t => t
  | .entity name _ => reference name
  | .element tag content =>
    match emptyReference? tag content with
    | some target => '[' :: target ++ [']']
    | none => proseOf content

/-- The running text of nodes. -/
def proseOf : List Node → Text
  | [] => []
  | n :: nodes => if n.isFigure then proseOf nodes else n.prose ++ proseOf nodes

end

/-- The running text of an element, with blanks squeezed. -/
def Element.runningText (e : Element) : Text :=
  Text.squeeze (Node.element e.tag e.content).prose

end DraftLint.Markup
