import DraftLint.Pattern.Build
import DraftLint.Text.Case
import DraftLint.Text.Numeral

/-!
# Citations

The ways in which text names other documents, and the names of drafts without their version.
-/

namespace DraftLint.Citation

open Pattern

/-- An RFC by its number, as a word or in brackets; the number is group 1 or group 2. -/
def rfc : Pattern :=
  ignoreCase <| oneOf [
    all [wordEdge, lit "RFC", maybe blank, group 1 decimals, wordEdge],
    all [lit "[RFC", group 2 decimals, lit "]"]]

/-- A label in brackets that is no RFC number. -/
def label : Pattern :=
  ignoreCase <| all [lit "[", notAhead (seq (lit "RFC") decimals),
    atLeastOnce (one (.or .letter (.or .digit (.of "-.")))), lit "]"]

/-- The version at the end of a draft name. -/
def draftVersion : Pattern :=
  all [lit "-", times 2 (one .decimal), lineEnd]

/-- A number that stands alone. -/
def number : Pattern :=
  all [wordEdge, digits, wordEdge]

/-- One or more RFC numbers with commas, blanks and `and` between, after a label. -/
def labelled (names : List String) : Pattern :=
  ignoreCase <| all [oneOf (names.map lit), anyBlanks, lit ":", anyBlanks,
    group 1 <| atLeastOnce <| all [lit "rfc", anyBlanks, digits,
      many (oneOf [lit ",", blank, lit "and"]), anyBlanks]]

def obsoletesField : Pattern := labelled ["obsoletes", "replaces"]
def updatesField : Pattern := labelled ["updates"]

/-- One or more numbers, each perhaps with `RFC` and brackets, after a verb. -/
def stated (verbs : List String) : Pattern :=
  ignoreCase <| all [oneOf (verbs.map lit), space,
    atLeastOnce <| group 1 <| all [
      maybe (all [maybe (lit "["), lit "rfc", maybe (lit "s"), maybe space]),
      digits, maybe (lit "]"), maybe (oneOf [lit ", ", lit " and "])]]

def obsoletesStatement : Pattern := stated ["obsoletes", "replaces"]
def updatesStatement : Pattern := stated ["updates"]

/-- The numbers that stand alone in a text. -/
def numbersIn (t : Text) : List Text :=
  (number.scan t).map Match.text

/-- The numbers in the matches of a pattern. -/
def rfcNumbers (t : Text) (p : Pattern) : List Text :=
  (p.scan t).flatMap fun m => numbersIn m.text

/-- Text in brackets that looks like a citation. -/
def lookalike : Pattern :=
  let letters := CharSet.or .letter .digit
  all [lit "[",
    oneOf [
      all [oneOf [one (.or .digit .upper), all [lit "I", maybe (lit "-"), lit "D", one .notNewline]],
        many (one (.or letters (.only '-'))),
        maybe (seq space (atLeastOnce (one (.or .digit (.or .upper (.only '-'))))))],
      all [oneOf [lit "IEEE", lit "ieee"], atLeastOnce (one (.or letters (.of ".-")))],
      all [oneOf [seq (lit "ITU") (maybe space), seq (lit "ITU-T") (maybe space), lit "G."],
        atLeastOnce (one (.or letters (.of ".-")))]],
    lit "]"]

/-- An RFC with this number, alone or in brackets. -/
def ofRfc (n : String) : Pattern :=
  ignoreCase <| oneOf [
    all [lit "[RFC", maybe space, lit n, lit "]"],
    all [wordEdge, lit "RFC", maybe space, lit n, wordEdge]]

def rfc2119 : Pattern := ofRfc "2119"
def rfc8174 : Pattern := ofRfc "8174"

/-- A bracket at the start, and one at the end. -/
def outerBrackets : Pattern :=
  oneOf [seq textStart (lit "["), seq (lit "]") lineEnd]

/-- The short form of a draft name at the start of a label. -/
def shortDraft : Pattern :=
  ignoreCase <| all [textStart, lit "I-D.", maybe (lit "draft-")]

/-- The name of a draft without version, if the label names a draft: `[I-D.ietf-foo-bar]` and
`draft-ietf-foo-bar-03` both give `draft-ietf-foo-bar`. -/
def draftName? (label : Text) : Option Text :=
  let name := outerBrackets.substitute [] (Text.trim label)
  let name := shortDraft.substitute "draft-".toList name
  let name := draftVersion.substitute [] name
  if Text.contains "draft".toList (Text.lower name) then some name else none

end DraftLint.Citation
