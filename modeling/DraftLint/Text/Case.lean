import DraftLint.Text.Basic
import DraftLint.Text.CaseTable

/-!
# Small letters

The full mapping of a text to small letters: the dotted capital I becomes two characters, and a capital
sigma that ends a word takes its final form.
-/

namespace DraftLint.Text

namespace CaseTable

/-- The small letter of the run at a code point, if the code point is one of the run's. -/
def Run.small? (r : Run) (n : Nat) : Option Nat :=
  if r.first ≤ n && n ≤ r.last && (n - r.first) % r.step == 0 then some (n + r.shift).toNat else none

end CaseTable

/-- The small form of a character on its own. -/
def lowerChar (c : Char) : List Char :=
  let n := c.toNat
  if n < 0x80 then [c.toLower]
  else if n == 0x130 then ['i', Char.ofNat 0x307]
  else match CaseTable.runs.findSome? (·.small? n) with
    | some m => [Char.ofNat m]
    | none => [c]

/-- A letter of either case. -/
def isCased (c : Char) : Bool :=
  inRanges CaseTable.cased c.toNat

/-- A mark or sign that does not end a word. -/
def isSkipped (c : Char) : Bool :=
  inRanges CaseTable.skipped c.toNat

/-- Past the skipped characters comes a letter with case. -/
def meetsCased (t : Text) : Bool :=
  (t.dropWhile isSkipped).head?.any isCased

/-- The rest of a text in small letters, given what stands before it, the nearest character first. -/
def lowerFrom : (before rest : Text) → Text
  | _, [] => []
  | before, c :: rest =>
    let small :=
      if c.toNat == 0x3A3 then
        if meetsCased before && !meetsCased rest then [Char.ofNat 0x3C2] else [Char.ofNat 0x3C3]
      else lowerChar c
    small ++ lowerFrom (c :: before) rest

/-- The text in small letters. -/
def lower (t : Text) : Text :=
  lowerFrom [] t

/-- The capital of an ASCII letter, any other character itself. -/
def upperAscii (t : Text) : Text :=
  t.map Char.toUpper

end DraftLint.Text
