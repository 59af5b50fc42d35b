import DraftLint.Document
import DraftLint.Verdict

/-!
# Layout of plain text

The length of lines, spacing and hyphenation, and code outside of marked blocks.
-/

namespace DraftLint.Rules

open Finding Issue

/-- The most lines with wide spaces before the text counts as justified. -/
def maxWideLines : Nat := 50

/-- The line is longer than it may be, form feeds at its end apart. -/
def isTooLong (line : Nat × Text) : Bool :=
  (Text.dropRightWhile (· == '\x0c') line.2).length > maxLineLength

/-- The first line with the most characters. -/
def longest? : List (Nat × Text) → Option (Nat × Text)
  | [] => none
  | line :: lines => match longest? lines with
    | none => some line
    | some other => if line.2.length < other.2.length then some other else some line

/-- A rule on plain text alone. -/
def plainOnly (f : Plain.Document → List Finding) : Document → Verdict
  | .text d => .of (f d)
  | .markup _ => .clean

/-- No line is too long. -/
def lineLength : Document → Verdict :=
  plainOnly fun d =>
    let long := d.lines.filter isTooLong
    match longest? long with
    | none => []
    | some (num, line) =>
      [⟨longLines long.length num line.length,
        some (long.map fun l => ⟨l.1, some (maxLineLength + 1)⟩)⟩]

/-- The right margin is ragged. -/
def spacing : Document → Verdict :=
  plainOnly fun d =>
    let places := d.scan.items.wideLines
    if places.length > maxWideLines then [⟨justifiedLines places.length, some places⟩] else []

/-- No word is broken at the end of a line. -/
def hyphenation : Document → Verdict :=
  plainOnly fun d =>
    let places := d.scan.items.brokenWords
    if places.isEmpty then [] else [⟨hyphenatedLines places.length, some places⟩]

/-- Nothing looks like code outside of code blocks. -/
def codeBlocks : Document → Verdict :=
  plainOnly fun d =>
    let places := d.scan.items.comments
    if places.isEmpty then [] else [⟨codeComments, some places⟩]

/-- Code comes with a licence. -/
def codeLicense : Document → Verdict :=
  plainOnly fun d =>
    if d.scan.items.hasCode && !d.overview.codeLicense then [anywhere codeWithoutLicense] else []

end DraftLint.Rules
