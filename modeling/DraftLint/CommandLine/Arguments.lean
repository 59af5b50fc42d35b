import DraftLint.Mode
import DraftLint.Pattern.Build
import DraftLint.Text.Numeral

/-!
# Arguments

The arguments of the command: options by their long names, which may be shortened, or by letters, which
may stand together, and the documents, which stand in one row.
-/

namespace DraftLint.CommandLine

inductive Output where
  | pretty
  | json
  | count
deriving DecidableEq, Repr

namespace Output

def name : Output → String
  | pretty => "pretty"
  | json => "json"
  | count => "count"

def ofName? (t : Text) : Option Output :=
  [pretty, json, count].find? fun o => t == o.name.toList

end Output

/-- What arguments ask for.  A mode or a year without a value is noticed only when it is needed. -/
structure Arguments where
  documents : List Text
  mode : Except Failure Mode
  output : Output
  year : Except Failure (Option Int)
  offline : Bool
  silent : Bool
  verbose : Bool
  debug : Bool
  version : Bool

namespace Arguments

def none : Arguments :=
  ⟨[], .ok .normal, .pretty, .ok .none, false, false, false, false, false⟩

end Arguments

/-- What an option with a value does to arguments, unless it refuses the value. -/
abbrev Assignment := Arguments → Text → Option Arguments

/-- What an option does. -/
inductive Effect where
  | switch (f : Arguments → Arguments)
  | value (f : Assignment)
  | help

/-- The modes by the names that may be given. -/
def mode? (t : Text) : Option Mode :=
  if t == "lenient".toList then some .forgiving else Mode.ofName? t

namespace Assignment

/-- A value of two dashes is none at all. -/
def isBlank (t : Text) : Bool :=
  t == ['-', '-']

def mode : Assignment := fun a t =>
  if isBlank t then some { a with mode := .error .unnamedMode }
  else (mode? t).map fun m => { a with mode := .ok m }

def output : Assignment := fun a t =>
  if isBlank t then some { a with output := .pretty }
  else (Output.ofName? t).map fun o => { a with output := o }

def year : Assignment := fun a t =>
  if isBlank t then some { a with year := .error .unnamedYear }
  else (Text.integer? t).map fun y => { a with year := .ok (some y) }

end Assignment

/-- The options by letter and name. -/
def options : List (String × String × Effect) :=
  [("-h", "--help", .help),
    ("-d", "--debug", .switch fun a => { a with debug := true }),
    ("-m", "--mode", .value .mode),
    ("-o", "--output", .value .output),
    ("-y", "--year", .value .year),
    ("", "--offline", .switch fun a => { a with offline := true }),
    ("-s", "--silent", .switch fun a => { a with silent := true }),
    ("-v", "--verbose", .switch fun a => { a with verbose := true }),
    ("-V", "--version", .switch fun a => { a with version := true })]

/-- The option that has exactly this letter or name. -/
def option? (t : Text) : Option Effect :=
  (options.find? fun o => t == o.1.toList || t == o.2.1.toList).map (·.2.2)

/-- The options whose names begin so. -/
def optionsBeginning (t : Text) : List Effect :=
  (options.filter fun o => Text.startsWith t o.2.1.toList).map (·.2.2)

/-- An argument by its form. -/
inductive Word where
  | plain (t : Text)
  /-- Everything after it is plain. -/
  | separator
  /-- Letters that stand together, of which the first is an option. -/
  | letters (t : Text)
  | name (e : Effect) (attached : Option Text)
  | unknown

/-- Why arguments are not followed. -/
inductive Refusal where
  | help
  | misuse
deriving DecidableEq, Repr

namespace Word

open Pattern in
/-- A number below zero. -/
def negative : Pattern :=
  oneOf [wholeLine [lit "-", decimals], wholeLine [lit "-", many decimal, lit ".", decimals]]

/-- An argument that begins with a dash and is not the letter or name of an option. -/
def ofOther (t : Text) : Word :=
  if negative.leads t || t.any (· == ' ') then plain t else unknown

/-- A name that may be shortened, and what is attached to it. -/
def ofName (t : Text) (attached : Option Text) : Except Refusal Word :=
  match optionsBeginning t with
  | [] => .ok unknown
  | [e] => .ok (name e attached)
  | _ => .error .misuse

/-- What stands before and after the first equals sign, if there is one. -/
def parts (t : Text) : Text × Option Text :=
  if t.any (· == '=') then
    let (front, rest) := Text.cut '=' t
    (front, some rest)
  else (t, none)

/-- A letter and what is attached to it, from which an equals sign in between is dropped. -/
def ofLetter (c : Char) : Text → Word
  | '=' :: d :: rest => letters (c :: d :: rest)
  | rest => letters (c :: rest)

/-- The form of an argument that is no separator. -/
def of (t : Text) : Except Refusal Word :=
  match t with
  | '-' :: '-' :: _ =>
    let (front, attached) := parts t
    match option? front with
    | some e => .ok (name e attached)
    | none => do
      match ← ofName front attached with
      | unknown => return ofOther t
      | w => return w
  | '-' :: c :: rest => .ok (if (option? ['-', c]).isSome then ofLetter c rest else ofOther t)
  | _ => .ok (plain t)

/-- The forms of all arguments. -/
def list : List Text → Except Refusal (List Word)
  | [] => .ok []
  | t :: ts =>
    if t == ['-', '-'] then .ok (separator :: ts.map plain)
    else do return (← of t) :: (← list ts)

end Word

/-- The documents stand in one row, with options before and after it but not inside. -/
inductive Row where
  | before
  | inside
  | after
deriving DecidableEq

/-- What the arguments so far have come to. -/
structure Progress where
  arguments : Arguments
  row : Row
  /-- What to do with the value that an option waits for. -/
  waiting : Option Assignment
  /-- Something could not be understood. -/
  strange : Bool

namespace Progress

def start : Progress :=
  ⟨.none, .before, none, false⟩

/-- The row of documents is over, if it has begun. -/
def leaveRow (p : Progress) : Progress :=
  { p with row := if p.row = .before then .before else .after }

/-- The row of documents goes on, with something in it. -/
def inRow (p : Progress) (documents : List Text) : Progress :=
  if p.row = .after then { p with strange := true }
  else
    let a := p.arguments
    { p with row := .inside, arguments := { a with documents := a.documents ++ documents } }

def set (p : Progress) (f : Assignment) (t : Text) : Except Refusal Progress :=
  match f p.arguments t with
  | some a => .ok { p with arguments := a, waiting := none }
  | none => .error .misuse

/-- Letters that stand together; the value of an option may be attached to its letter. -/
def letters (p : Progress) : Text → Except Refusal Progress
  | [] => .ok p
  | c :: rest =>
    match option? ['-', c], rest with
    | some (.switch f), rest => letters { p with arguments := f p.arguments } rest
    | some (.value f), [] => .ok { p with waiting := some f }
    | some (.value f), t => p.set f t
    | some .help, _ => .error .help
    | none, _ => .error .misuse

/-- One more argument. -/
def step (p : Progress) (w : Word) : Except Refusal Progress :=
  match p.waiting, w with
  | some f, .plain t => p.set f t
  | some _, _ => .error .misuse
  | none, .plain t => .ok (p.inRow [t])
  | none, .separator => .ok (p.inRow [])
  | none, .unknown => .ok { p.leaveRow with strange := true }
  | none, .letters t => p.leaveRow.letters t
  | none, .name (.value f) none => .ok { p.leaveRow with waiting := some f }
  | none, .name (.value f) (some t) => p.leaveRow.set f t
  | none, .name (.switch f) none =>
    let p := p.leaveRow
    .ok { p with arguments := f p.arguments }
  | none, .name .help none => .error .help
  | none, .name _ (some _) => .error .misuse

end Progress

/-- The arguments that texts give. -/
def Arguments.of (ts : List Text) : Except Refusal Arguments := do
  let p ← (← Word.list ts).foldlM Progress.step Progress.start
  if p.waiting.isSome || p.strange then .error .misuse else return p.arguments

end DraftLint.CommandLine
