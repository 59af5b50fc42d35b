import DraftLint.Text.Basic

/-!
# Patterns

Patterns over text with greedy and lazy repetition, captured groups and look-around.  A match is the
first one in order of preference: the left alternative before the right, one more round of a greedy
repetition before leaving it, and leaving a lazy one before another round.
-/

namespace DraftLint

/-- A set of characters. -/
abbrev CharSet := Char → Bool

/-- A position between two characters of a text. -/
structure Cursor where
  /-- What was passed, the nearest character first. -/
  before : List Char
  /-- What lies ahead. -/
  rest : List Char
  /-- The number of characters passed. -/
  pos : Nat

namespace Cursor

/-- The position in front of a text. -/
def start (t : Text) : Cursor :=
  ⟨[], t, 0⟩

/-- The position after the next character, if that is in the set. -/
def step? (s : CharSet) (c : Cursor) : Option Cursor :=
  match c.rest with
  | [] => none
  | x :: rest => if s x then some ⟨x :: c.before, rest, c.pos + 1⟩ else none

def wordBefore (c : Cursor) : Bool :=
  c.before.head?.any Text.isWord

def wordAhead (c : Cursor) : Bool :=
  c.rest.head?.any Text.isWord

/-- The characters ahead begin with one from each set in turn. -/
def sees : List CharSet → List Char → Bool
  | [], _ => true
  | _ :: _, [] => false
  | s :: sets, x :: rest => s x && sees sets rest

end Cursor

/-- A condition on a position. -/
inductive Anchor where
  /-- Nothing was passed. -/
  | textStart
  /-- Nothing is ahead, or only one last line feed. -/
  | lineEnd
  /-- Nothing is ahead. -/
  | textEnd
  /-- A word character on exactly one side. -/
  | wordEdge
  /-- The characters just passed, in reading order, lie in these sets. -/
  | after (sets : List CharSet)
  | notAfter (sets : List CharSet)

/-- The condition holds at the position. -/
def Anchor.holds : Anchor → Cursor → Bool
  | .textStart, c => c.before.isEmpty
  | .lineEnd, c => c.rest.isEmpty || c.rest == ['\n']
  | .textEnd, c => c.rest.isEmpty
  | .wordEdge, c => c.wordBefore != c.wordAhead
  | .after sets, c => Cursor.sees sets.reverse c.before
  | .notAfter sets, c => !Cursor.sees sets.reverse c.before

inductive Pattern where
  | empty
  | one (s : CharSet)
  | seq (p q : Pattern)
  | alt (p q : Pattern)
  /-- Any number of rounds, as many as possible. -/
  | many (p : Pattern)
  /-- Any number of rounds, as few as possible. -/
  | few (p : Pattern)
  | group (n : Nat) (p : Pattern)
  | anchor (a : Anchor)
  /-- The pattern matches here; nothing is passed. -/
  | ahead (p : Pattern)
  | notAhead (p : Pattern)

/-- What a group matched last. -/
structure Capture where
  group : Nat
  start : Cursor
  stop : Cursor

/-- A position reached, with the captures on the way, the latest first. -/
structure Reach where
  cursor : Cursor
  captures : List Capture

namespace Reach

/-- Rounds of `body` while it makes progress, then `next`; with `fuel` spent, `next` at once. -/
def greedy {α : Type} (body : Reach → (Reach → Option α) → Option α) (next : Reach → Option α) :
    Nat → Reach → Option α
  | 0, r => next r
  | fuel + 1, r =>
    (body r fun r' =>
      if r.cursor.pos < r'.cursor.pos then greedy body next fuel r' else none) <|> next r

/-- As `greedy`, but `next` is tried before each round. -/
def lazy {α : Type} (body : Reach → (Reach → Option α) → Option α) (next : Reach → Option α) :
    Nat → Reach → Option α
  | 0, r => next r
  | fuel + 1, r =>
    next r <|> body r fun r' =>
      if r.cursor.pos < r'.cursor.pos then lazy body next fuel r' else none

end Reach

namespace Pattern

/-- The first result of `next` over the ways to match, in order of preference.  No repetition has more
than `fuel` rounds; a bound on the characters ahead is always enough. -/
def run {α : Type} (fuel : Nat) : Pattern → Reach → (Reach → Option α) → Option α
  | empty, r, next => next r
  | one s, r, next =>
    match r.cursor.step? s with
    | some c => next { r with cursor := c }
    | none => none
  | seq p q, r, next => p.run fuel r fun r' => q.run fuel r' next
  | alt p q, r, next => p.run fuel r next <|> q.run fuel r next
  | many p, r, next => Reach.greedy (fun r next => p.run fuel r next) next fuel r
  | few p, r, next => Reach.lazy (fun r next => p.run fuel r next) next fuel r
  | group n p, r, next =>
    p.run fuel r fun r' => next { r' with captures := ⟨n, r.cursor, r'.cursor⟩ :: r'.captures }
  | anchor a, r, next => if a.holds r.cursor then next r else none
  | ahead p, r, next => if (p.run fuel r some).isSome then next r else none
  | notAhead p, r, next => if (p.run fuel r some).isSome then none else next r

end Pattern

/-- A match of a pattern in a text. -/
structure Match where
  start : Cursor
  stop : Cursor
  captures : List Capture

namespace Match

/-- The characters between two positions of one text. -/
def between (start stop : Cursor) : Text :=
  start.rest.take (stop.pos - start.pos)

/-- The characters matched. -/
def text (m : Match) : Text :=
  between m.start m.stop

/-- What group `n` matched, if it took part. -/
def group? (m : Match) (n : Nat) : Option Text :=
  (m.captures.find? (·.group == n)).map fun g => between g.start g.stop

end Match

namespace Pattern

/-- The preferred match that starts at the position. -/
def matchAt (p : Pattern) (fuel : Nat) (c : Cursor) : Option Match :=
  p.run fuel ⟨c, []⟩ fun r => some ⟨c, r.cursor, r.captures⟩

/-- The preferred match at the start of the text. -/
def match? (p : Pattern) (t : Text) : Option Match :=
  p.matchAt t.length (.start t)

/-- The first match at or after a position. -/
def searchFrom (p : Pattern) (fuel : Nat) : (before rest : List Char) → (pos : Nat) → Option Match
  | before, [], pos => p.matchAt fuel ⟨before, [], pos⟩
  | before, x :: rest, pos =>
    p.matchAt fuel ⟨before, x :: rest, pos⟩ <|> searchFrom p fuel (x :: before) rest (pos + 1)

/-- The leftmost match in the text. -/
def search? (p : Pattern) (t : Text) : Option Match :=
  p.searchFrom t.length [] t 0

/-- The pattern matches somewhere in the text. -/
def occursIn (p : Pattern) (t : Text) : Bool :=
  (p.search? t).isSome

/-- The pattern matches at the start of the text. -/
def leads (p : Pattern) (t : Text) : Bool :=
  (p.match? t).isSome

/-- The pattern matches the text from end to end. -/
def fits (p : Pattern) (t : Text) : Bool :=
  (Pattern.seq p (.anchor .textEnd)).leads t

/-- The matches from a position on, each starting where the one before has ended or later; the first
`skip` characters belong to an earlier match. -/
def scanFrom (p : Pattern) (fuel : Nat) :
    (skip : Nat) → (before rest : List Char) → (pos : Nat) → List Match
  | 0, before, [], pos => (p.matchAt fuel ⟨before, [], pos⟩).toList
  | _ + 1, _, [], _ => []
  | skip + 1, before, x :: rest, pos => scanFrom p fuel skip (x :: before) rest (pos + 1)
  | 0, before, x :: rest, pos =>
    match p.matchAt fuel ⟨before, x :: rest, pos⟩ with
    | some m => m :: scanFrom p fuel (m.stop.pos - pos - 1) (x :: before) rest (pos + 1)
    | none => scanFrom p fuel 0 (x :: before) rest (pos + 1)

/-- All matches in the text that do not overlap, from the left. -/
def scan (p : Pattern) (t : Text) : List Match :=
  p.scanFrom t.length 0 [] t 0

/-- The text with every match replaced. -/
def substitute (p : Pattern) (new : Text) (t : Text) : Text :=
  go 0 0 (p.scan t) t
where
  /-- `skip` characters of a match are still to be left out before position `pos` is kept. -/
  go : (skip pos : Nat) → List Match → Text → Text
    | _, _, _, [] => []
    | skip + 1, pos, ms, _ :: t => go skip (pos + 1) ms t
    | 0, pos, m :: ms, x :: t =>
      if m.start.pos = pos then new ++ go (m.stop.pos - pos - 1) (pos + 1) ms t
      else x :: go 0 (pos + 1) (m :: ms) t
    | 0, _, [], t => t

end Pattern
end DraftLint
