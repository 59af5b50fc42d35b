import DraftLint.Text.Basic

/-!
# Sources of markup

What is left of a source to read, the line that reading has come to, and the small steps that every part
of the reader is made of.  A step that finds no way on fails, and the whole reading with it.  A step can
also report something and go on; of all reports only the latest counts.
-/

namespace DraftLint.Markup

structure Source where
  rest : Text
  /-- The line that the next character stands on. -/
  line : Nat
  /-- Entities whose replacement was found to be well formed. -/
  sound : List Text
  /-- Identifiers of the elements so far. -/
  identifiers : List Text
  /-- The latest report is of a fault. -/
  faulty : Bool

/-- The source before anything of the text is read. -/
def Source.ofText (t : Text) : Source :=
  ⟨t, 1, [], [], false⟩

abbrev Read := StateT Source Option

namespace Read

/-- The next character. -/
def peek? : Read (Option Char) := do
  return (← get).rest.head?

/-- The rest starts with the mark. -/
def sees (mark : String) : Read Bool := do
  return Text.startsWith mark.toList (← get).rest

/-- The first `n` characters are taken. -/
def take (n : Nat) : Read Text := do
  let s ← get
  let t := s.rest.take n
  set { s with rest := s.rest.drop n, line := s.line + t.count '\n' }
  return t

/-- The mark is taken, if it comes next. -/
def accept (mark : String) : Read Bool := do
  if ← sees mark then
    discard <| take mark.length
    return true
  else return false

/-- The mark comes next and is taken. -/
def expect (mark : String) : Read Unit := do
  if ← accept mark then return () else failure

/-- The longest run of characters with `p` is taken. -/
def takeWhile (p : Char → Bool) : Read Text := do
  let s ← get
  let t := s.rest.takeWhile p
  set { s with rest := s.rest.dropWhile p, line := s.line + t.count '\n' }
  return t

/-- The parts before and after the first occurrence of a mark. -/
def splitAt? (mark : Text) : Text → Option (Text × Text)
  | [] => none
  | c :: t =>
    if Text.startsWith mark (c :: t) then some ([], (c :: t).drop mark.length)
    else (splitAt? mark t).map fun (front, rest) => (c :: front, rest)

/-- Everything up to the mark is taken, and the mark, which must come. -/
def takeTo (mark : String) : Read Text := do
  match splitAt? mark.toList (← get).rest with
  | none => failure
  | some (t, _) =>
    let t ← take t.length
    discard <| take mark.length
    return t

def isBlank (c : Char) : Bool :=
  c == ' ' || c == '\t' || c == '\n' || c == '\r'

/-- Blanks are taken, and whether there are any is told. -/
def blanks : Read Bool := do
  return !(← takeWhile isBlank).isEmpty

/-- Blanks are taken, if any come. -/
def skipBlanks : Read Unit :=
  discard blanks

/-- At least one blank comes. -/
def someBlanks : Read Unit := do
  if ← blanks then return () else failure

/-- The text between two equal quotation marks. -/
def quoted : Read Text := do
  match ← peek? with
  | some '"' => expect "\""; takeTo "\""
  | some '\'' => expect "'"; takeTo "'"
  | _ => failure

/-- Nothing is left. -/
def atEnd : Read Bool := do
  return (← get).rest.isEmpty

/-- The step fails unless the condition holds. -/
def check (b : Bool) : Read Unit :=
  if b then return () else failure

/-! ## Reports -/

/-- Something is wrong, but what it means is clear. -/
def fault : Read Unit :=
  modify fun s => { s with faulty := true }

/-- Something is unusual.  As the latest report this takes the place of any fault before. -/
def remark : Read Unit :=
  modify fun s => { s with faulty := false }

/-- It is a fault unless the condition holds. -/
def faultUnless (b : Bool) : Read Unit :=
  if b then return () else fault

/-- The result of reading a whole text. -/
def whole? {α : Type} (r : Read α) (t : Text) : Option α := do
  let (a, s) ← r.run (Source.ofText t)
  if s.rest.isEmpty then some a else none

end Read
end DraftLint.Markup
