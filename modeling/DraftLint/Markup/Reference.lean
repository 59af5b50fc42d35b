import DraftLint.Markup.Name
import DraftLint.Text.Lines
import DraftLint.Text.Numeral

/-!
# References

References to characters and to entities, and text with references in it taken apart.
-/

namespace DraftLint.Markup

/-- A part of a text that may hold references. -/
inductive Piece where
  /-- A character that stands for itself. -/
  | plain (c : Char)
  /-- A character that is given by its number. -/
  | numbered (c : Char)
  | entity (name : Text)

/-- The entities that every document has. -/
def predefined? (name : Text) : Option Char :=
  ([("lt", '<'), ("gt", '>'), ("amp", '&'), ("quot", '"'), ("apos", '\'')].find? fun e =>
    name == e.1.toList).map (·.2)

namespace Piece

/-- The character that a number in front of a semicolon stands for, and what comes after. -/
def numbered? (base : Nat) (isDigit : Char → Bool) (t : Text) : Option (Piece × Text) :=
  let digits := t.takeWhile isDigit
  let c := Char.ofNat (digits.foldl (fun n d => min (base * n + Text.hexDigit d) 0x110000) 0)
  match t.dropWhile isDigit with
  | ';' :: rest => if !digits.isEmpty && isChar c then some (numbered c, rest) else none
  | _ => none

/-- The reference of which the first character has been read, and what comes after. -/
def reference? : Text → Option (Piece × Text)
  | '#' :: 'x' :: t => numbered? 16 Text.isHexDigit t
  | '#' :: t => numbered? 10 Char.isDigit t
  | t =>
    let isPart := fun c => isNameChar c || c == ':'
    let name := t.takeWhile isPart
    match t.dropWhile isPart with
    | ';' :: rest =>
      if name.head?.any fun c => isNameStart c || c == ':' then some (entity name, rest) else none
    | _ => none

/-- The pieces of a text of which the first `skip` characters belong to an earlier reference. -/
def listFrom : (skip : Nat) → Text → Option (List Piece)
  | _, [] => some []
  | skip + 1, _ :: t => listFrom skip t
  | 0, c :: t =>
    if c == '&' then
      match reference? t with
      | none => none
      | some (p, rest) => (listFrom (t.length - rest.length) t).map (p :: ·)
    else (listFrom 0 t).map (plain c :: ·)

/-- The pieces of a text, if all references in it are complete. -/
def list? (t : Text) : Option (List Piece) :=
  listFrom 0 t

/-- The piece as it stands in the replacement of an entity, where only characters are resolved. -/
def inReplacement : Piece → Text
  | plain c => [c]
  | numbered c => [c]
  | entity name => '&' :: name ++ [';']

end Piece

namespace Read

/-- A reference. -/
def reference : Read Piece := do
  expect "&"
  let s ← get
  match Piece.reference? s.rest with
  | none => failure
  | some (p, rest) =>
    set { s with rest := rest }
    return p

end Read
end DraftLint.Markup
