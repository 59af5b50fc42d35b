import DraftLint.Markup.Reference

/-!
# Declarations

What the prolog of a document declares: entities, and attributes with their kinds and defaults.
-/

namespace DraftLint.Markup

/-- What an entity stands for. -/
inductive Entity where
  /-- A text that the document itself gives. -/
  | inside (replacement : Text)
  /-- Something outside the document. -/
  | outside
  /-- Something that is no markup. -/
  | unparsed

inductive AttributeKind where
  | text
  /-- A sequence of tokens, so that spaces only part them. -/
  | tokens
  /-- A token that no other element has as its identifier. -/
  | identifier
deriving DecidableEq

structure AttributeRule where
  /-- The element, by its name as written. -/
  element : Text
  name : Text
  kind : AttributeKind
  default : Option Text

structure Declarations where
  entities : List (Text × Entity)
  /-- Entities for use in declarations only. -/
  parameters : List (Text × Entity)
  attributes : List AttributeRule
  /-- There may be declarations that were not read. -/
  incomplete : Bool
  /-- The document says that it needs no other declarations. -/
  standalone : Bool

namespace Declarations

def none : Declarations :=
  ⟨[], [], [], false, false⟩

/-- An entity may be used that is not declared, as far as can be seen. -/
def lenient (d : Declarations) : Bool :=
  d.incomplete && !d.standalone

/-- What a name stands for; the first declaration counts. -/
def entity? (d : Declarations) (name : Text) : Option Entity :=
  (d.entities.find? (·.1 == name)).map (·.2)

def parameter? (d : Declarations) (name : Text) : Option Entity :=
  (d.parameters.find? (·.1 == name)).map (·.2)

def addEntity (d : Declarations) (name : Text) (e : Entity) : Declarations :=
  { d with entities := d.entities ++ [(name, e)] }

def addParameter (d : Declarations) (name : Text) (e : Entity) : Declarations :=
  { d with parameters := d.parameters ++ [(name, e)] }

/-- The rule is added, unless there is one for the same attribute. -/
def addAttribute (d : Declarations) (r : AttributeRule) : Declarations :=
  if d.attributes.any fun s => s.element == r.element && s.name == r.name then d
  else { d with attributes := d.attributes ++ [r] }

/-- The characters of pieces, with `inner` for the replacements of entities. -/
def resolveWith (d : Declarations) (inner : Text → Option Text) : Piece → Option Text
  | .plain c => if c == '<' then .none else some [c]
  | .numbered c => some [c]
  | .entity name =>
    match predefined? name with
    | some c => some [c]
    | .none =>
      match d.entity? name with
      | some (.inside replacement) => inner replacement
      | some .outside => .none
      | some .unparsed => .none
      | .none => if d.lenient then some [] else .none

/-- The text with its references resolved, through at most `depth` entities inside one another. -/
def resolve (d : Declarations) : (depth : Nat) → Text → Option Text
  | 0, t => do
    let ps ← Piece.list? t
    let ts ← ps.mapM (d.resolveWith fun _ => .none)
    return ts.flatten
  | depth + 1, t => do
    let ps ← Piece.list? t
    let ts ← ps.mapM (d.resolveWith (d.resolve depth))
    return ts.flatten

/-- The text, or what references in it stand for, refers to an entity that is not declared. -/
def misses (d : Declarations) : (depth : Nat) → Text → Bool
  | 0, _ => false
  | depth + 1, t => ((Piece.list? t).getD []).any fun
    | .plain _ => false
    | .numbered _ => false
    | .entity name =>
      match d.entity? name with
      | some (.inside replacement) => d.misses depth replacement
      | some _ => false
      | .none => (predefined? name).isNone

/-- Line ends and tabs become spaces. -/
def spaced (t : Text) : Text :=
  (Text.unifyLineEnds t).map fun c => if c == '\n' || c == '\t' then ' ' else c

/-- The value of an attribute, from the text between its quotation marks. -/
def value? (d : Declarations) (t : Text) : Option Text :=
  d.resolve d.entities.length (spaced t)

/-- The value with one space between tokens and none around them. -/
def tokensOnly (t : Text) : Text :=
  Text.join [' '] ((Text.splitOn ' ' t).filter (!·.isEmpty))

/-- The kind of an attribute of an element. -/
def kindOf (d : Declarations) (element name : Text) : AttributeKind :=
  match d.attributes.find? fun r => r.element == element && r.name == name with
  | some r => r.kind
  | .none => .text

/-- The value as an attribute of the kind has it. -/
def settle (kind : AttributeKind) (value : Text) : Text :=
  match kind with
  | .text => value
  | .tokens => tokensOnly value
  | .identifier => tokensOnly value

/-- The attributes of an element with the defaults of those that are missing. -/
def withDefaults (d : Declarations) (element : Text) (given : List (Text × Text)) :
    List (Text × Text) :=
  given ++ d.attributes.filterMap fun r =>
    match r.default with
    | some v =>
      if r.element == element && !given.any (·.1 == r.name) then some (r.name, v)
      else .none
    | .none => .none

end Declarations
end DraftLint.Markup
