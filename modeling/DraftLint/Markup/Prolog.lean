import DraftLint.Markup.Declarations
import DraftLint.Text.Case

/-!
# Prologs

What may stand before the root element: the line that names version and encoding, comments, processing
instructions, and the document type with its declarations.
-/

namespace DraftLint.Markup.Read

/-- A comment, of which the start has been read. -/
def comment : Read Unit := do
  discard <| takeTo "--"
  expect ">"

/-- What there is to report of the target of a processing instruction; the name `xml` is kept for
other things. -/
def inspectTarget (target : Text) : Read Unit := do
  if Text.lower target == "xml".toList then fault
  else
    if Text.startsWith "xml".toList (Text.lower target) &&
        !Text.isOneOf target ["xml-stylesheet", "xml-model"] then remark
    faultUnless (isColonFree target)

/-- A processing instruction, of which the start has been read. -/
def instruction : Read Unit := do
  let target ← name
  check (target != "xml".toList)
  inspectTarget target
  if ← accept "?>" then return ()
  someBlanks
  discard <| takeTo "?>"

/-- Blanks, comments and processing instructions. -/
def miscellany : (fuel : Nat) → Read Unit
  | 0 => failure
  | fuel + 1 => do
    skipBlanks
    if ← accept "<!--" then
      comment
      miscellany fuel
    else if ← accept "<?" then
      instruction
      miscellany fuel
    else return ()

/-! ## The first line -/

/-- The sign between a name and its value. -/
def equals : Read Unit := do
  skipBlanks
  expect "="
  skipBlanks

def isVersion : Text → Bool
  | '1' :: '.' :: digits => digits.all Char.isDigit
  | _ => false

def isEncodingName (t : Text) : Bool :=
  t.head?.any Char.isAlpha && t.all fun c => c.isAlphanum || c == '.' || c == '_' || c == '-'

/-- What the first line says. -/
structure FirstLine where
  encoding : Option Text
  standalone : Bool

/-- The name of the encoding, if it comes next. -/
def encodingName? : Read (Option Text) := do
  if ← accept "encoding" then
    equals
    let t ← quoted
    check (isEncodingName t)
    return some t
  else return none

/-- Whether the document stands alone, if that comes next. -/
def standalone : Read Bool := do
  if ← accept "standalone" then
    equals
    let t ← quoted
    check (t == "yes".toList || t == "no".toList)
    skipBlanks
    return t == "yes".toList
  else return false

/-- The first line, of which the start has been read. -/
def firstLineRest : Read FirstLine := do
  someBlanks
  expect "version"
  equals
  check (isVersion (← quoted))
  let parted ← blanks
  if ← accept "?>" then return ⟨none, false⟩
  check parted
  let encoding ← encodingName?
  let parted ← if encoding.isSome then blanks else pure true
  if ← accept "?>" then return ⟨encoding, false⟩
  check parted
  let alone ← standalone
  expect "?>"
  return ⟨encoding, alone⟩

/-- The first line, if there is one. -/
def firstLine : Read FirstLine := do
  let s ← get
  match s.rest.drop 5 with
  | c :: _ =>
    if (← sees "<?xml") && isBlank c then
      expect "<?xml"
      firstLineRest
    else return ⟨none, false⟩
  | [] => return ⟨none, false⟩

/-! ## Declarations -/

def isPublicChar (c : Char) : Bool :=
  c.isAlphanum || " \r\n-'()+,./:=?;!*#@$_%".toList.contains c

def publicLiteral : Read Unit := do
  check ((← quoted).all isPublicChar)

/-- Where something outside is found.  A public name needs a place after it, unless `loose`, and then
the place may be empty. -/
def place? (loose : Bool) : Read (Option Text) := do
  if ← accept "SYSTEM" then
    someBlanks
    return some (← quoted)
  else if ← accept "PUBLIC" then
    someBlanks
    publicLiteral
    let parted ← blanks
    match ← peek? with
    | some '"' => check parted; return some (← quoted)
    | some '\'' => check parted; return some (← quoted)
    | _ => check loose; return some []
  else return none

/-- The replacement of an entity, as the declaration gives it. -/
def replacement : Read Text := do
  let t ← quoted
  check (t.all (· != '%'))
  match Piece.list? (Text.unifyLineEnds t) with
  | some ps => return ps.flatMap Piece.inReplacement
  | none => failure

/-- What a declaration lets an entity stand for; it cannot be a fragment of something outside. -/
def entityMeaning (parameter : Bool) : Read Entity := do
  match ← place? false with
  | none => return .inside (← replacement)
  | some place =>
    check (place.all (· != '#'))
    let parted ← blanks
    if !parameter && parted && (← accept "NDATA") then
      someBlanks
      discard name
      return .unparsed
    else return .outside

/-- The declaration of an entity, of which the start has been read. -/
def entityDeclaration (d : Declarations) : Read Declarations := do
  someBlanks
  let parameter ← accept "%"
  if parameter then someBlanks
  let n ← plainName
  someBlanks
  let e ← entityMeaning parameter
  skipBlanks
  expect ">"
  return if parameter then d.addParameter n e else d.addEntity n e

/-- A sign that something may be missing or repeated. -/
def repetition : Read Unit := do
  match ← peek? with
  | some c => if c == '?' || c == '*' || c == '+' then discard <| take 1
  | none => return ()

mutual

/-- One particle of the content of an element. -/
def particle : (fuel : Nat) → Read Unit
  | 0 => failure
  | fuel + 1 => do
    if ← accept "(" then group fuel none
    else discard name
    repetition

/-- Particles up to the closing bracket, with the same sign between all of them. -/
def group : (fuel : Nat) → (sign : Option String) → Read Unit
  | 0, _ => failure
  | fuel + 1, sign => do
    skipBlanks
    particle fuel
    skipBlanks
    if ← accept ")" then return ()
    let next ← if ← accept "," then pure "," else do
      expect "|"
      pure "|"
    check (sign.all (· == next))
    group fuel (some next)

end

/-- Names of elements that may stand between text, up to the closing bracket. -/
def mixedNames : (fuel : Nat) → Read Unit
  | 0 => failure
  | fuel + 1 => do
    skipBlanks
    if ← accept ")" then expect "*"
    else
      expect "|"
      skipBlanks
      discard name
      mixedNames fuel

/-- What an element may hold. -/
def contentModel (fuel : Nat) : Read Unit := do
  if ← accept "EMPTY" then return ()
  if ← accept "ANY" then return ()
  expect "("
  skipBlanks
  if ← accept "#PCDATA" then
    skipBlanks
    if ← accept ")" then
      discard <| accept "*"
    else mixedNames fuel
  else
    group fuel none
    repetition

/-- The declaration of an element, of which the start has been read. -/
def elementDeclaration (fuel : Nat) : Read Unit := do
  someBlanks
  discard name
  someBlanks
  contentModel fuel
  skipBlanks
  expect ">"

/-- Tokens up to the closing bracket, which should all be different and new. -/
def choices (token : Read Text) : (fuel : Nat) → (before : List Text) → Read Unit
  | 0, _ => failure
  | fuel + 1, before => do
    skipBlanks
    let t ← token
    faultUnless (!before.contains t)
    skipBlanks
    if ← accept ")" then return ()
    expect "|"
    choices token fuel (t :: before)

/-- The kind of an attribute. -/
def attributeKind (fuel : Nat) : Read AttributeKind := do
  if ← accept "CDATA" then return .text
  if ← accept "(" then
    choices nameToken fuel []
    return .tokens
  if ← accept "NOTATION" then
    someBlanks
    expect "("
    choices name fuel []
    return .tokens
  let word ← takeWhile Char.isAlpha
  if word == "ID".toList then return .identifier
  check (Text.isOneOf word ["IDREF", "IDREFS", "ENTITY", "ENTITIES", "NMTOKEN", "NMTOKENS"])
  return .tokens

/-- The value of an attribute. -/
def attributeValue (d : Declarations) : Read Text := do
  let t ← quoted
  if d.misses (d.entities.length + 1) t then remark
  match d.value? t with
  | some v => return v
  | none => failure

/-- The default of an attribute, if it has one. -/
def attributeDefault (d : Declarations) : Read (Option Text) := do
  if ← accept "#REQUIRED" then return none
  if ← accept "#IMPLIED" then return none
  if ← accept "#FIXED" then someBlanks
  return some (← attributeValue d)

/-- The declaration of the attributes of an element, after the name of the element. -/
def attributeRules (element : Text) : (fuel : Nat) → Declarations → Read Declarations
  | 0, _ => failure
  | fuel + 1, d => do
    let parted ← blanks
    if ← accept ">" then return d
    check parted
    let n ← name
    someBlanks
    let kind ← attributeKind fuel
    someBlanks
    let default ← attributeDefault d
    faultUnless (n != "xml:id".toList || kind = .identifier)
    attributeRules element fuel
      (d.addAttribute ⟨element, n, kind, default.map (Declarations.settle kind)⟩)

/-- The declaration of a notation, of which the start has been read. -/
def notationDeclaration : Read Unit := do
  someBlanks
  discard plainName
  someBlanks
  check (← place? true).isSome
  skipBlanks
  expect ">"

/-- Declarations up to a closing bracket or the end of the text. -/
def declarations : (fuel : Nat) → Declarations → Read Declarations
  | 0, _ => failure
  | fuel + 1, d => do
    skipBlanks
    if ← atEnd then return d
    if ← sees "]" then return d
    if ← accept "<!--" then
      comment
      declarations fuel d
    else if ← accept "<?" then
      instruction
      declarations fuel d
    else if ← accept "<!ENTITY" then declarations fuel (← entityDeclaration d)
    else if ← accept "<!ELEMENT" then
      elementDeclaration fuel
      declarations fuel d
    else if ← accept "<!ATTLIST" then
      someBlanks
      declarations fuel (← attributeRules (← name) fuel d)
    else if ← accept "<!NOTATION" then
      notationDeclaration
      declarations fuel d
    else
      expect "%"
      let n ← name
      expect ";"
      let d := { d with incomplete := true }
      match d.parameter? n with
      | some (.inside t) =>
        let s ← get
        set { s with rest := t }
        let d ← declarations fuel d
        check (← atEnd)
        set { s with faulty := (← get).faulty }
        declarations fuel d
      | some _ => declarations fuel d
      | none =>
        check (!d.standalone)
        remark
        declarations fuel d

/-- The document type, of which the start has been read. -/
def documentType (fuel : Nat) (standalone : Bool) : Read Declarations := do
  someBlanks
  discard name
  skipBlanks
  let external ← place? false
  let d := { Declarations.none with incomplete := external.isSome, standalone }
  skipBlanks
  let d ← if ← accept "[" then do
      let d ← declarations fuel d
      expect "]"
      pure d
    else pure d
  skipBlanks
  expect ">"
  return d

/-- Everything before the root element. -/
def prolog (fuel : Nat) : Read Declarations := do
  let first ← firstLine
  miscellany fuel
  if ← accept "<!DOCTYPE" then
    let d ← documentType fuel first.standalone
    miscellany fuel
    return d
  else return { Declarations.none with standalone := first.standalone }

end DraftLint.Markup.Read
