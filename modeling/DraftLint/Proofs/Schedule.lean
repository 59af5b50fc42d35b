import DraftLint.Proofs.Outcome
import DraftLint.Proofs.Session

/-!
# Rules at once

The rules of a review go on at once and share the pages requested.  In whatever order they ask, get replies
and come to their verdicts, the review is the one that they give one after the other.
-/

namespace DraftLint.Review

/-- The rules for the format of the document, each with its inquiry still to be made. -/
def tasks (m : Mode) (offline : Bool) (s : Standard) (d : Document) : List (Inquiry Verdict) :=
  (Rule.forFormat d.format).map fun r => r.verdict s (asksSites m offline) d

variable {today : Date} {q : Request} {m : Mode} {s : Standard} {offline : Bool} {d : Document} {w : World}

end DraftLint.Review
