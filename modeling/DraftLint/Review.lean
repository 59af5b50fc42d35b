import DraftLint.Rule

/-!
# Reviews

All rules together: what they find in a document, each nit once, in the order of the rules.
-/

namespace DraftLint

/-- How a review is asked for. -/
structure Request where
  /-- The mode by its name, if one is named. -/
  mode : Option Text
  offline : Bool
  year : Option Int

structure Review where
  mode : Mode
  nits : List Nit

namespace Review

/-- Other sites are asked unless the review is for submission or offline. -/
def asksSites (m : Mode) (offline : Bool) : Bool :=
  m ≠ .submission && !offline

/-- The verdicts of all rules for the format of the document. -/
def verdicts (s : Standard) (online : Bool) (d : Document) : Inquiry (List Verdict) :=
  (Rule.forFormat d.format).mapM fun r => r.verdict s online d

/-- The nits of verdicts, each once; or the first failure. -/
def merge (m : Mode) (vs : List Verdict) : Except Failure (List Nit) := do
  let found ← vs.mapM fun v => v.nits m
  return Text.distinct found.flatten

/-- The nits that the rules find in a mode. -/
def nitsIn (m : Mode) (offline : Bool) (s : Standard) (d : Document) :
    Inquiry (Except Failure (List Nit)) := do
  let vs ← verdicts s (asksSites m offline) d
  return merge m vs

/-- The review of a document on a day. -/
def of (today : Date) (q : Request) (d : Document) : Inquiry (Except Failure Review) := do
  match Mode.requested q.mode with
  | .error e => return .error e
  | .ok m =>
    let found ← nitsIn m q.offline ⟨today, q.year⟩ d
    return found.map fun nits => ⟨m, nits⟩

end Review
end DraftLint
