import DraftLint.Markup.Source
import DraftLint.Text.Character

/-!
# Characters and names of markup

Which characters may stand in a document, and what counts as a name.
-/

namespace DraftLint.Markup

/-- The character may stand in a document. -/
def isChar (c : Char) : Bool :=
  let n := c.toNat
  n == 0x9 || n == 0xA || n == 0xD || (0x20 ≤ n && n ≤ 0xD7FF) || (0xE000 ≤ n && n ≤ 0xFFFD) ||
    (0x10000 ≤ n && n ≤ 0x10FFFF)

/-- The character may begin a name, apart from the colon. -/
def isNameStart (c : Char) : Bool :=
  let n := c.toNat
  if n < 0x80 then c.isAlpha || c == '_'
  else Text.inRanges [(0xC0, 0xD6), (0xD8, 0xF6), (0xF8, 0x2FF), (0x370, 0x37D), (0x37F, 0x1FFF),
    (0x200C, 0x200D), (0x2070, 0x218F), (0x2C00, 0x2FEF), (0x3001, 0xD7FF), (0xF900, 0xFDCF),
    (0xFDF0, 0xFFFD), (0x10000, 0xEFFFF)] n

/-- The character may stand inside a name, apart from the colon. -/
def isNameChar (c : Char) : Bool :=
  let n := c.toNat
  isNameStart c || c.isDigit || c == '-' || c == '.' || n == 0xB7 || (0x300 ≤ n && n ≤ 0x36F) ||
    (0x203F ≤ n && n ≤ 0x2040)

/-- The text is a name without colons. -/
def isPlainName (t : Text) : Bool :=
  t.head?.any isNameStart && t.all isNameChar

/-- A name in which a colon may part a prefix from the rest. -/
structure QualifiedName where
  space : Option Text
  stem : Text
deriving DecidableEq

namespace QualifiedName

/-- The name as it is written. -/
def written (n : QualifiedName) : Text :=
  match n.space with
  | none => n.stem
  | some p => p ++ ':' :: n.stem

/-- The name that is written so.  The first colon parts it, if names stand on both sides. -/
def ofWritten (t : Text) : QualifiedName :=
  match t.dropWhile (· != ':') with
  | ':' :: c :: stem =>
    let space := t.takeWhile (· != ':')
    if !space.isEmpty && isNameStart c then ⟨some space, c :: stem⟩ else ⟨none, t⟩
  | _ => ⟨none, t⟩

end QualifiedName

/-- There is no colon in the text. -/
def isColonFree (t : Text) : Bool :=
  t.all (· != ':')

namespace Read

/-- A name, in which colons may stand anywhere. -/
def name : Read Text := do
  let t ← takeWhile fun c => isNameChar c || c == ':'
  check (t.head?.any fun c => isNameStart c || c == ':')
  return t

/-- A name that should be without colons. -/
def plainName : Read Text := do
  let t ← name
  faultUnless (isColonFree t)
  return t

/-- A name token, which may begin with any character of names. -/
def nameToken : Read Text := do
  let t ← takeWhile fun c => isNameChar c || c == ':'
  check (!t.isEmpty)
  return t

/-- A name that may have a prefix; there should be no other colon in it. -/
def qualifiedName : Read QualifiedName := do
  let n := QualifiedName.ofWritten (← name)
  faultUnless (isColonFree n.stem)
  return n

end Read
end DraftLint.Markup
