import DraftLint.Pattern.Build
import DraftLint.Text.Case
import DraftLint.Text.Numeral
import DraftLint.Failure

/-!
# Labels of the downref registry

The labels by which the registry and a document name the same thing.
-/

namespace DraftLint.Registry

open Pattern

/-- A link to a document; the group is its name, without version. -/
def link : Pattern :=
  let draftChar := CharSet.or .lower (.or .digit (.only '-'))
  ignoreCase <| all [lit "/doc/",
    group 1 <| oneOf [seq (lit "rfc") decimals,
      all [lit "draft-", one draftChar, few (one draftChar)]],
    maybe (all [lit "-", times 2 (one .decimal)]), maybe (lit "/"), lineEnd]

/-- An RFC by its number; the group is the number. -/
def rfcLabel : Pattern :=
  ignoreCase <| wholeLine [lit "rfc", maybe blank, group 1 decimals]

/-- The label of an RFC, by its number. -/
def ofRfc (n : Int) : Text :=
  "RFC ".toList ++ Text.ofInt n

/-- The label of an RFC, by the numeral that gives its number. -/
def ofNumeral (t : Text) : Except Failure Text :=
  match Text.integer? t with
  | some n => .ok (ofRfc n)
  | none => .error .notANumber

/-- One label for all spellings of a name: `RFC` and the number, or the name in small letters. -/
def normalize (label : Text) : Except Failure Text :=
  let label := Text.trim label
  match (rfcLabel.match? label).bind (·.group? 1) with
  | some number => ofNumeral number
  | none => .ok (Text.lower label)

/-- The label that a link stands for, if it leads to a document. -/
def ofLink? (href : Text) : Option (Except Failure Text) :=
  ((link.search? href).bind (·.group? 1)).map normalize

end DraftLint.Registry
