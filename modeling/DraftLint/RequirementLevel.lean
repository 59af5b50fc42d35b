import DraftLint.Pattern.Build
import DraftLint.Text.Case

/-!
# Requirement levels

The words that state how binding a requirement is, and the paragraph that gives them their meaning.
-/

namespace DraftLint.RequirementLevel

open Pattern

/-- A requirement-level word with its negation before or after it. -/
def keyword : Pattern :=
  all [wordEdge, maybe (seq (lit "NOT") blank),
    oneOf (["MUST", "REQUIRED", "SHALL", "SHOULD", "RECOMMENDED", "OPTIONAL", "MAY"].map lit),
    maybe (seq blank (lit "NOT")), wordEdge]

/-- Combinations that have no meaning. -/
def badCombination : Pattern :=
  oneOf (["MUST not", "SHALL not", "SHOULD not", "not RECOMMENDED", "MAY NOT", "NOT REQUIRED",
    "NOT OPTIONAL"].map lit)

/-- The wordings of the paragraph. -/
inductive Wording where
  | rfc2119
  | rfc2119ByTitle
  | rfc8174
deriving DecidableEq, Repr

namespace Wording

def every : List Wording := [rfc2119, rfc2119ByTitle, rfc8174]

/-- The paragraph up to the keywords that only newer wordings list. -/
def opening : String :=
  "The key words \"MUST\", \"MUST NOT\", \"REQUIRED\", \"SHALL\", \"SHALL NOT\", \"SHOULD\", " ++
    "\"SHOULD NOT\", \"RECOMMENDED\","

def closing : String :=
  "\"MAY\", and \"OPTIONAL\" in this document are to be interpreted as described in"

def olderStart : Pattern :=
  all [lit opening, maybe space, maybe (lit "\"NOT RECOMMENDED\", "), lit closing]

/-- The whole paragraph. -/
def pattern : Wording → Pattern
  | rfc2119 =>
    ignoreCase <| all [olderStart, maybe (lit " BCP 14,"), lit " RFC", maybe space, lit "2119",
      one (.of ".,;")]
  | rfc2119ByTitle =>
    ignoreCase <| all [olderStart,
      lit " \"Key words for use in RFCs to Indicate Requirement Levels\" [RFC2119]"]
  | rfc8174 =>
    ignoreCase <| all [lit opening, lit " \"NOT RECOMMENDED\", ", lit closing,
      lit " BCP", maybe space, lit "14 [RFC2119] [RFC8174]"]

def commonParts : List Pattern :=
  ["The key words ", "\"MUST\", \"MUST NOT\", \"REQUIRED\", \"SHALL\"",
    "\"SHALL NOT\", \"SHOULD\", \"SHOULD NOT\", \"RECOMMENDED\"",
    "\"NOT RECOMMENDED\", \"MAY\", and \"OPTIONAL\""].map lit

def described : String := "in this document are to be interpreted as described in"

/-- What the paragraph is made of, in order. -/
def parts : Wording → List Pattern
  | rfc2119 => commonParts ++ [lit described,
      ignoreCase (all [lit "RFC", maybe space, lit "2119", maybe (one (.of ".,;"))])]
  | rfc2119ByTitle => commonParts ++ [lit described,
      ignoreCase (lit "\"Key words for use in RFCs to Indicate Requirement Levels\" [RFC2119]")]
  | rfc8174 => commonParts ++ [lit (described ++ " BCP 14"),
      ignoreCase (lit "[RFC2119] [RFC8174]")]

end Wording

/-- How many of the parts, from the first on, occur in the text. -/
def leadingParts (t : Text) (parts : List Pattern) : Nat :=
  (parts.takeWhile (·.occursIn t)).length

/-- The first part of some wording occurs. -/
def hasPartOf (t : Text) (wordings : List Wording) : Bool :=
  wordings.any fun w => leadingParts t w.parts > 0

/-- The text resembles the paragraph. -/
def resembles (t : Text) : Bool :=
  hasPartOf t Wording.every

/-- The paragraph occurs in one of its wordings. -/
def hasParagraph (t : Text) : Bool :=
  Wording.every.any fun w => w.pattern.occursIn t

/-- The keywords that the first occurrence of each wording lists, each once. -/
def listed (t : Text) : List Text :=
  Text.distinct <| Wording.every.flatMap fun w =>
    match w.pattern.search? t with
    | some m => (keyword.scan m.text).map Match.text
    | none => []

/-- The text with every occurrence of the paragraph left out. -/
def withoutParagraph (t : Text) : Text :=
  Wording.every.foldl (fun t w => w.pattern.substitute [' '] t) t

/-- The keywords used outside the paragraph. -/
def used (t : Text) : List Text :=
  (keyword.scan (withoutParagraph t)).map Match.text

/-- The bad combinations, in order. -/
def badCombinations (t : Text) : List Text :=
  (badCombination.scan t).map Match.text

end DraftLint.RequirementLevel
