import DraftLint.Pattern.Basic

/-!
# Building patterns

Sets of characters, literal text, counted repetition, and matching that ignores the case of letters.
-/

namespace DraftLint

namespace CharSet

def any : CharSet := fun _ => true

/-- The characters from `lo` to `hi`. -/
def range (lo hi : Char) : CharSet :=
  fun c => lo.toNat ≤ c.toNat && c.toNat ≤ hi.toNat

/-- The characters of the string. -/
def of (chars : String) : CharSet :=
  fun c => chars.toList.contains c

def only (x : Char) : CharSet :=
  fun c => c == x

def not (s : CharSet) : CharSet :=
  fun c => !s c

def or (s t : CharSet) : CharSet :=
  fun c => s c || t c

def lower : CharSet := range 'a' 'z'
def upper : CharSet := range 'A' 'Z'
def letter : CharSet := or lower upper
def digit : CharSet := range '0' '9'
def blank : CharSet := Text.isBlank
def decimal : CharSet := Text.isDecimal
def word : CharSet := Text.isWord
def notNewline : CharSet := fun c => c != '\n'

/-- The characters that pass for `c` when case is ignored: its other case if it is an ASCII letter; for
the long s and the Kelvin sign the letters they are forms of; for the dotted capital and the dotless
small i both cases of i. -/
def caseForms (c : Char) : List Char :=
  if c.toNat == 0x17F then [c, 's', 'S']
  else if c.toNat == 0x212A then [c, 'k', 'K']
  else if c.toNat == 0x130 || c.toNat == 0x131 then [c, 'i', 'I']
  else [c, c.toLower, c.toUpper]

/-- The set with everything that differs from a member by case alone. -/
def ignoreCase (s : CharSet) : CharSet :=
  fun c => (caseForms c).any s

end CharSet

/-- The condition with the case of letters ignored. -/
def Anchor.ignoreCase : Anchor → Anchor
  | .after sets => .after (sets.map CharSet.ignoreCase)
  | .notAfter sets => .notAfter (sets.map CharSet.ignoreCase)
  | a => a

namespace Pattern

/-- The pattern with the case of letters ignored. -/
def ignoreCase : Pattern → Pattern
  | empty => empty
  | one s => one s.ignoreCase
  | seq p q => seq p.ignoreCase q.ignoreCase
  | alt p q => alt p.ignoreCase q.ignoreCase
  | many p => many p.ignoreCase
  | few p => few p.ignoreCase
  | group n p => group n p.ignoreCase
  | anchor a => anchor a.ignoreCase
  | ahead p => ahead p.ignoreCase
  | notAhead p => notAhead p.ignoreCase

/-- One pattern after the other. -/
def all : List Pattern → Pattern
  | [] => empty
  | [p] => p
  | p :: ps => seq p (all ps)

/-- Any one of the patterns, earlier ones preferred. -/
def oneOf : List Pattern → Pattern
  | [] => notAhead empty
  | [p] => p
  | p :: ps => alt p (oneOf ps)

/-- Exactly these characters. -/
def literal : List Char → Pattern
  | [] => empty
  | [c] => one (.only c)
  | c :: cs => seq (one (.only c)) (literal cs)

/-- Exactly this string. -/
def lit (s : String) : Pattern :=
  literal s.toList

/-- The pattern or nothing. -/
def maybe (p : Pattern) : Pattern :=
  alt p empty

/-- At least one round, as many as possible. -/
def atLeastOnce (p : Pattern) : Pattern :=
  seq p (many p)

/-- Exactly `n` rounds. -/
def times : Nat → Pattern → Pattern
  | 0, _ => empty
  | 1, p => p
  | n + 1, p => seq p (times n p)

/-- At most `n` rounds, as many as possible. -/
def upTo : Nat → Pattern → Pattern
  | 0, _ => empty
  | n + 1, p => maybe (seq p (upTo n p))

/-- At least `lo` rounds and at most `extra` more. -/
def between (lo extra : Nat) (p : Pattern) : Pattern :=
  seq (times lo p) (upTo extra p)

/-- At least `n` rounds. -/
def atLeast (n : Nat) (p : Pattern) : Pattern :=
  seq (times n p) (many p)

def textStart : Pattern := anchor .textStart
def lineEnd : Pattern := anchor .lineEnd
def wordEdge : Pattern := anchor .wordEdge
def blank : Pattern := one .blank
def blanks : Pattern := atLeastOnce blank
def anyBlanks : Pattern := many blank
def decimal : Pattern := one .decimal
def decimals : Pattern := atLeastOnce decimal
def digit : Pattern := one .digit
def digits : Pattern := atLeastOnce digit
def space : Pattern := one (.only ' ')

/-- From the start of the text to its end or its last line feed. -/
def wholeLine (ps : List Pattern) : Pattern :=
  all (textStart :: ps ++ [lineEnd])

end Pattern
end DraftLint
