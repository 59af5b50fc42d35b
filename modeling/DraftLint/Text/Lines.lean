import DraftLint.Text.Basic

/-!
# Lines

Line ends, tab stops and numbered lines.
-/

namespace DraftLint.Text

/-- Carriage returns, with or without a line feed after them, become line feeds. -/
def unifyLineEnds : Text → Text
  | [] => []
  | '\r' :: '\n' :: t => '\n' :: unifyLineEnds t
  | '\r' :: t => '\n' :: unifyLineEnds t
  | c :: t => c :: unifyLineEnds t

/-- Columns between tab stops. -/
def tabStop : Nat := 8

/-- Tabs become spaces up to the next tab stop, when `col` characters stand before on the line. -/
def expandTabsFrom : (col : Nat) → Text → Text
  | _, [] => []
  | col, c :: t =>
    if c = '\t' then
      let width := tabStop - col % tabStop
      List.replicate width ' ' ++ expandTabsFrom (col + width) t
    else if c = '\n' ∨ c = '\r' then c :: expandTabsFrom 0 t
    else c :: expandTabsFrom (col + 1) t

def expandTabs (t : Text) : Text :=
  expandTabsFrom 0 t

/-- The lines of a text, without their line feeds. -/
def lines (t : Text) : List Text :=
  splitOn '\n' t

/-- Items with consecutive numbers from `n`. -/
def numberFrom {α : Type} : Nat → List α → List (Nat × α)
  | _, [] => []
  | n, x :: xs => (n, x) :: numberFrom (n + 1) xs

/-- The lines with their numbers, the first being line 1. -/
def numberedLines (t : Text) : List (Nat × Text) :=
  numberFrom 1 (lines t)

end DraftLint.Text
