import DraftLint.Pattern.Build
import DraftLint.Text.Utf8

/-!
# External entities

Declarations of entities that lie outside the document are taken out of it before it is read, together
with the references to them.  They are reported, and never fetched.
-/

namespace DraftLint.Markup

structure ExternalEntity where
  name : Text
  /-- The word before the place: `SYSTEM` or `PUBLIC`. -/
  kind : Text
  url : Text
deriving DecidableEq

namespace ExternalEntity

open Pattern

/-- The blanks of single octets. -/
def octetBlank : CharSet :=
  .of " \t\n\r\x0b\x0c"

/-- The declaration; the groups are the name, the kind and the place. -/
def declaration : Pattern :=
  let blanks := atLeastOnce (one octetBlank)
  all [lit "<!ENTITY", blanks,
    group 1 (atLeastOnce (one (.or .letter (.or .digit (.of "-._"))))), blanks,
    group 2 (oneOf [lit "SYSTEM", lit "PUBLIC"]), blanks,
    lit "\"", group 3 (many (one (CharSet.only '"').not)), lit "\"", many (one octetBlank), lit ">"]

/-- The octets as characters of the same numbers. -/
def spread (bs : Octets) : Text :=
  bs.map fun b => Char.ofNat b.toNat

/-- The octets that the characters number. -/
def gather (t : Text) : Octets :=
  t.map fun c => UInt8.ofNat c.toNat

/-- The entity that a declaration names. -/
def ofMatch (m : Match) : ExternalEntity :=
  let part (n : Nat) : Text := Utf8.decodeLossy (gather ((m.group? n).getD []))
  ⟨part 1, part 2, part 3⟩

/-- The reference to the entity. -/
def reference (e : ExternalEntity) : Text :=
  '&' :: e.name ++ [';']

/-- The octets without declarations of external entities and without references to those, and the
entities in the order of their declarations. -/
def extract (bs : Octets) : Octets × List ExternalEntity :=
  let t := spread bs
  let entities := (declaration.scan t).map ofMatch
  let cleaned := declaration.substitute [] t
  (gather (entities.foldl (fun t e => Text.replaceAll e.reference [] t) cleaned), entities)

end ExternalEntity
end DraftLint.Markup
