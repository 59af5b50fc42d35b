import DraftLint.Markup.Namespace
import DraftLint.Markup.Prolog
import DraftLint.Markup.Tree

/-!
# Reading elements

A well-formed document as a tree.  Comments and processing instructions leave no trace, sections of
literal text become text, and references to declared entities stay in the tree as they are written,
after what they stand for was found to be well formed.
-/

namespace DraftLint.Markup

/-- The most elements that may stand inside one another. -/
def maxDepth : Nat := 256

/-- Where content stands. -/
structure Surroundings where
  declarations : Declarations
  scope : Scope
  depth : Nat
  /-- The line of the element around. -/
  line : Nat
  /-- The content is what an entity stands for. -/
  replaced : Bool

/-- Nodes read so far, the latest first, and the line that a reference after them counts for. -/
structure Nodes where
  latest : List Node
  line : Nat

namespace Nodes

/-- Text is added, joined to text just before; its line counts only if it is the first. -/
def addText (ns : Nodes) (t : Text) (line : Nat) : Nodes :=
  match ns.latest with
  | .text s :: latest => { ns with latest := .text (s ++ t) :: latest }
  | latest => if t.isEmpty then ns else ⟨.text t :: latest, line⟩

def addElement (ns : Nodes) (e : Element) : Nodes :=
  ⟨.element e.tag e.content :: ns.latest, e.line⟩

/-- A reference is added; after it the line of the element around counts. -/
def addReference (ns : Nodes) (name : Text) (around : Nat) : Nodes :=
  ⟨.entity name ns.line :: ns.latest, around⟩

def inOrder (ns : Nodes) : List Node :=
  ns.latest.reverse

end Nodes

/-- The run of plain characters that text is read by at first. -/
def openingRun (t : Text) : Text :=
  let t := t.dropWhile (· == '\r')
  let run := t.takeWhile fun c => c.toNat < 0x80 && c != '\r'
  if run.isEmpty then t else run

/-- The name of the attribute that says whether blanks matter. -/
def spacingName : QualifiedName :=
  ⟨some "xml".toList, "space".toList⟩

namespace Read

/-- What there is to report of a single attribute. -/
def inspectAttribute (n : QualifiedName) (v : Text) : Read Unit := do
  match Scope.declared? n with
  | some space =>
    faultUnless (Scope.isSound space v)
    if Scope.isSound space v && Scope.isUnusual space v then remark
  | none =>
    if n == spacingName && !Text.isOneOf v ["default", "preserve"] then remark

/-- The attributes up to the end of a start. -/
def attributes (d : Declarations) : (fuel : Nat) → List (QualifiedName × Text) →
    Read (List (QualifiedName × Text))
  | 0, _ => failure
  | fuel + 1, given => do
    let parted ← blanks
    if ← sees ">" then return given
    if ← sees "/>" then return given
    check parted
    let n ← qualifiedName
    check (!given.any (·.1 == n))
    equals
    let v ← attributeValue d
    inspectAttribute n v
    attributes d fuel (given ++ [(n, v)])

end Read

/-- The attributes as the declarations complete them. -/
def Declarations.complete (d : Declarations) (element : QualifiedName)
    (given : List (QualifiedName × Text)) : List (QualifiedName × Text) :=
  let given := given.map fun (n, v) =>
    (n.written, Declarations.settle (d.kindOf element.written n.written) v)
  (d.withDefaults element.written given).map fun (n, v) => (QualifiedName.ofWritten n, v)

/-- The name of the attribute that is an identifier in every document. -/
def identifierName : QualifiedName :=
  ⟨some "xml".toList, "id".toList⟩

/-- The attribute has no special form, or it is a name with blanks around it. -/
def hasForm (a : QualifiedName × Text) : Bool :=
  let inner := Text.dropRightWhile Read.isBlank (a.2.dropWhile Read.isBlank)
  a.1 != identifierName || isPlainName inner

/-- The attribute of an element is an identifier. -/
def Declarations.identifies (d : Declarations) (element : QualifiedName) (a : QualifiedName × Text) :
    Bool :=
  a.1 == identifierName || (d.kindOf element.written a.1.written = .identifier && !a.2.isEmpty)

namespace Read

/-- An element gets an identifier, which none before it should have. -/
def newIdentifier (t : Text) : Read Unit := do
  let s ← get
  if s.identifiers.contains t then fault
  else set { s with identifiers := t :: s.identifiers }

/-- What there is to report of identifiers, which do not count in replacements. -/
def inspectIdentifiers (s : Surroundings) (element : QualifiedName)
    (proper : List (QualifiedName × Text)) : Read Unit := do
  if s.replaced then return ()
  faultUnless (proper.all hasForm)
  (proper.filter (s.declarations.identifies element)).forM fun a => newIdentifier a.2

/-- What the start of an element says, and the scope inside it. -/
def tag (s : Surroundings) (n : QualifiedName) (given : List (QualifiedName × Text)) :
    Read (Tag × Scope) := do
  let all := s.declarations.complete n given
  let scope := s.scope.inside all
  let proper := Scope.proper all
  faultUnless (scope.knows n && proper.all fun a => scope.knows a.1)
  inspectIdentifiers s n proper
  match scope.attributes? proper with
  | none => failure
  | some attributes => return (⟨scope.element n, (← get).line, attributes⟩, scope)

mutual

/-- Nodes up to the end of the element around, or of the text. -/
def content : (fuel : Nat) → Surroundings → Nodes → Read Nodes
  | 0, _, _ => failure
  | fuel + 1, s, ns => do
    if ← atEnd then return ns
    if ← sees "</" then return ns
    if ← accept "<!--" then
      comment
      content fuel s ns
    else if ← accept "<?" then
      instruction
      content fuel s ns
    else if ← accept "<![CDATA[" then
      let t ← takeTo "]]>"
      content fuel s (ns.addText (Text.unifyLineEnds t) (← get).line)
    else if ← accept "<" then
      content fuel s (ns.addElement (← element fuel s))
    else if ← sees "&" then
      match ← reference with
      | .entity name =>
        match predefined? name with
        | some c => content fuel s (ns.addText [c] (← get).line)
        | none =>
          sound fuel s name
          content fuel s (ns.addReference name s.line)
      | .plain c => content fuel s (ns.addText [c] (← get).line)
      | .numbered c => content fuel s (ns.addText [c] (← get).line)
    else
      let start := (← get).line
      let t ← takeWhile fun c => c != '<' && c != '&'
      check (!Text.contains "]]>".toList t)
      content fuel s (ns.addText (Text.unifyLineEnds t) (start + (openingRun t).count '\n'))

/-- An element, of which the first character has been read. -/
def element : (fuel : Nat) → Surroundings → Read Element
  | 0, _ => failure
  | fuel + 1, s => do
    check (s.depth < maxDepth)
    let n ← qualifiedName
    let given ← attributes s.declarations fuel []
    let (tag, scope) ← tag s n given
    if ← accept "/>" then return ⟨tag, []⟩
    expect ">"
    let ns ← content fuel { s with scope, depth := s.depth + 1, line := tag.line } ⟨[], tag.line⟩
    expect "</"
    check ((← name) == n.written)
    skipBlanks
    expect ">"
    return ⟨tag, ns.inOrder⟩

/-- The entity may be referred to in content, and what it stands for is well-formed content. -/
def sound : (fuel : Nat) → Surroundings → Text → Read Unit
  | 0, _, _ => failure
  | fuel + 1, s, name => do
    match s.declarations.entity? name with
    | none =>
      check s.declarations.lenient
      remark
    | some .unparsed => failure
    | some .outside => return ()
    | some (.inside t) =>
      let before ← get
      if before.sound.contains name then return ()
      set { before with rest := t }
      discard <| content fuel { s with replaced := true } ⟨[], 0⟩
      check (← atEnd)
      let after ← get
      set { before with sound := name :: after.sound, faulty := after.faulty }

end

/-- A whole document. -/
def document (fuel : Nat) : Read Element := do
  let d ← prolog fuel
  expect "<"
  let room := d.entities.foldl (fun n e => match e.2 with
    | .inside t => n + t.length + 2
    | _ => n) 0
  let root ← element (fuel + room) ⟨d, [], 0, 0, false⟩
  miscellany fuel
  check (← atEnd)
  check (!(← get).faulty)
  return root

end Read

/-- The root element of a text, if the text is a well-formed document. -/
def Element.ofText? (t : Text) : Option Element :=
  if t.all isChar then Read.whole? (Read.document (t.length + 2)) t else none

end DraftLint.Markup
