import DraftLint.Text.Basic

/-!
# Trees of elements

A marked-up document as a tree, and the ways to walk it.  All walks go in document order, an element
before what it holds.
-/

namespace DraftLint.Markup

/-- What the start of an element says.  A name in a namespace has the namespace in braces before it. -/
structure Tag where
  name : Text
  /-- The line on which the start ends. -/
  line : Nat
  attributes : List (Text × Text)

inductive Node where
  | text (t : Text)
  /-- A reference to an entity, which stands for itself. -/
  | entity (name : Text) (line : Nat)
  | element (tag : Tag) (content : List Node)

structure Element where
  tag : Tag
  content : List Node

/-- An element as it stands in a tree. -/
structure Occurrence where
  element : Element
  parent : Option Element
  /-- The text between the element and its next sibling. -/
  tail : Text

/-- The text in front of the first element or reference. -/
def leadingText : List Node → Text
  | .text t :: nodes => t ++ leadingText nodes
  | _ => []

/-- A reference to an entity as it is written. -/
def reference (name : Text) : Text :=
  '&' :: name ++ [';']

mutual

/-- The pieces of text in a node; references stay as they are written. -/
def Node.pieces : Node → List Text
  | .text t => [t]
  | .entity name _ => [reference name]
  | .element _ content => piecesOf content

/-- The pieces of text in nodes. -/
def piecesOf : List Node → List Text
  | [] => []
  | n :: nodes => n.pieces ++ piecesOf nodes

end

mutual

/-- The elements at and inside a node. -/
def Node.occurrences (parent : Element) (tail : Text) : Node → List Occurrence
  | .text _ => []
  | .entity .. => []
  | .element tag content =>
    ⟨⟨tag, content⟩, some parent, tail⟩ :: occurrencesIn ⟨tag, content⟩ content

/-- The elements at and inside nodes. -/
def occurrencesIn (parent : Element) : List Node → List Occurrence
  | [] => []
  | n :: nodes => n.occurrences parent (leadingText nodes) ++ occurrencesIn parent nodes

end

namespace Element

def name (e : Element) : Text :=
  e.tag.name

def line (e : Element) : Nat :=
  e.tag.line

def isNamed (name : String) (e : Element) : Bool :=
  e.tag.name == name.toList

/-- The value of an attribute. -/
def attribute? (name : String) (e : Element) : Option Text :=
  (e.tag.attributes.find? (·.1 == name.toList)).map (·.2)

/-- The value of an attribute, if it is there and not empty. -/
def filled? (name : String) (e : Element) : Option Text :=
  (e.attribute? name).filter (!·.isEmpty)

/-- The value of an attribute, empty if it is missing. -/
def attributeText (name : String) (e : Element) : Text :=
  (e.attribute? name).getD []

/-- The text before the first child. -/
def leadText (e : Element) : Text :=
  leadingText e.content

/-- The pieces of text inside the element. -/
def pieces (e : Element) : List Text :=
  piecesOf e.content

/-- All text inside the element. -/
def allText (e : Element) : Text :=
  e.pieces.flatten

/-- The child elements. -/
def children (e : Element) : List Element :=
  e.content.filterMap fun
    | .element tag content => some ⟨tag, content⟩
    | _ => none

/-- The child elements with a name. -/
def childrenNamed (name : String) (e : Element) : List Element :=
  e.children.filter (·.isNamed name)

/-- The text before the first child of the first child element with a name. -/
def childText? (name : String) (e : Element) : Option Text :=
  (e.childrenNamed name).head?.map leadText

/-- The elements inside the element. -/
def inner (e : Element) : List Occurrence :=
  occurrencesIn e e.content

/-- The element and the elements inside it. -/
def walk (e : Element) : List Occurrence :=
  ⟨e, none, []⟩ :: e.inner

/-- The element and the elements inside it. -/
def all (e : Element) : List Element :=
  e.walk.map Occurrence.element

/-- Those of the element and the elements inside it that have the name. -/
def allNamed (name : String) (e : Element) : List Element :=
  e.all.filter (·.isNamed name)

/-- The grandchildren with a name under children with a name. -/
def grandchildren (outer inner : String) (e : Element) : List Element :=
  (e.childrenNamed outer).flatMap (·.childrenNamed inner)

end Element
end DraftLint.Markup
