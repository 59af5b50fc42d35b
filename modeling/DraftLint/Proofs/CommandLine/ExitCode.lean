import DraftLint.CommandLine.Run
import Mathlib.Data.List.Forall2
import Mathlib.Data.List.TakeWhile

/-!
# Exit codes

The command succeeds exactly if every file can be read as a document in which no error is found.  How and
whether the findings are shown makes no difference to that.  A file that cannot be read ends the run, so that
only the files before it are processed; the reports about these tell which of them passed.
-/

namespace DraftLint.CommandLine

/-- What the review of a file comes to, if the file can be read as a document. -/
def judgement? (env : Environment) (offline : Bool) (terms : Terms) (path : Text) :
    Option (Except Failure (List Nit)) :=
  match env.files path with
  | .error _ => none
  | .ok content =>
    match Document.ofFile (some path) content with
    | .error _ => none
    | .ok d => some ((Review.nitsIn terms.mode offline terms.standard d).run env.world .empty).1

/-- The file can be read as a document, and none of the nits found in it is an error. -/
def Passes (env : Environment) (offline : Bool) (terms : Terms) (path : Text) : Prop :=
  ∃ ns, judgement? env offline terms path = some (.ok ns) ∧ ∀ n ∈ ns, n.severity ≠ .error

/-- No rule fails on the file. -/
def Judged (env : Environment) (offline : Bool) (terms : Terms) (path : Text) : Prop :=
  ∀ e, judgement? env offline terms path ≠ some (.error e)

instance (env : Environment) (offline : Bool) (terms : Terms) (path : Text) :
    Decidable (Judged env offline terms path) :=
  match h : judgement? env offline terms path with
  | some (.error e) => .isFalse fun hjudged => hjudged e h
  | some (.ok _) => .isTrue fun _ he => nomatch h.symm.trans he
  | none => .isTrue fun _ he => nomatch h.symm.trans he

instance (env : Environment) (offline : Bool) (terms : Terms) (path : Text) :
    Decidable (Passes env offline terms path) :=
  match h : judgement? env offline terms path with
  | some (.ok ns) => decidable_of_iff (∀ n ∈ ns, n.severity ≠ .error) <| by simp [Passes, h]
  | some (.error _) => .isFalse fun ⟨_, hns, _⟩ => nomatch h.symm.trans hns
  | none => .isFalse fun ⟨_, hns, _⟩ => nomatch h.symm.trans hns

/-- The files before the first that cannot be read. -/
def processed (env : Environment) (paths : List Text) : List Text :=
  paths.takeWhile fun path => (env.files path).isOk

/-- A JSON value names the file and tells whether it passes. -/
def Tells (env : Environment) (offline : Bool) (terms : Terms) (path : Text) (v : Json) : Prop :=
  (v.get? "file").bind (·.get? "path") = some (.text path) ∧
    (v.get? "result" = some (.ofString "pass") ↔ Passes env offline terms path) ∧
    (v.get? "result" = some (.ofString "fail") ↔ ¬Passes env offline terms path)

/-- What the outcome of a run says about the documents. -/
structure Outcome.Tells (env : Environment) (a : Arguments) (terms : Terms) (o : Outcome) : Prop where
  zero_iff : o.exitCode = 0 ↔ ∀ path ∈ a.documents, Passes env a.offline terms path
  one_of_ne_zero : o.exitCode ≠ 0 → o.exitCode = 1
  output_of_silent : a.silent = true → o.output = []
  output_of_json : a.silent = false → a.output = .json → ∃ values,
    List.Forall₂ (CommandLine.Tells env a.offline terms) (processed env a.documents) values ∧
    o.output = values.flatMap fun v => v.spread ++ ['\n']

section Steps

variable {env : Environment} {a : Arguments} {terms : Terms} {path : Text} {r : Written}

/-- What is written about a file that can be read. -/
def Reports (env : Environment) (a : Arguments) (terms : Terms) (path : Text) (r : Written) : Prop :=
  ∃ content, env.files path = .ok content ∧ reportContent env a terms path content = .ok r

theorem anyError_eq_false_iff {ns : List Nit} : Nit.anyError ns = false ↔ ∀ n ∈ ns, n.severity ≠ .error := by
  simp [Nit.anyError, Nit.isError]

/-- A report is about a file that is no document, or about the nits that were found. -/
theorem reports_iff_judgement : Reports env a terms path r ↔ ∃ content, env.files path = .ok content ∧
    ((∃ u, judgement? env a.offline terms path = none ∧ r = reportUnreadable env a path content.length u ∧
        Document.ofFile (some path) content = .error u) ∨
      ∃ ns, judgement? env a.offline terms path = some (.ok ns) ∧
        r = reportNits env a path content.length ns) := by
  unfold Reports judgement?
  cases env.files path with
  | error u => simp
  | ok content =>
    simp only [Except.ok.injEq, exists_eq_left', reportContent]
    cases Document.ofFile (some path) content with
    | error u => simp [eq_comm]
    | ok d =>
      simp only [reduceCtorEq, Option.some.injEq, and_false, exists_false, false_or]
      cases ((Review.nitsIn terms.mode a.offline terms.standard d).run env.world .empty).1 with
      | error e => simp [bind, Except.bind]
      | ok ns => simp [bind, Except.bind, pure, Except.pure, eq_comm]

/-- The report says that the file passed exactly if it passes, whatever the format. -/
theorem Reports.passed_iff (h : Reports env a terms path r) :
    r.passed = true ↔ Passes env a.offline terms path := by
  obtain ⟨content, -, ⟨u, hnone, rfl, -⟩ | ⟨ns, hns, rfl⟩⟩ := reports_iff_judgement.mp h
  · simp [reportUnreadable, Passes, hnone]
  · simp [reportNits, Passes, hns, anyError_eq_false_iff]

theorem tells_resultValue {offline passed : Bool} {size : Nat} {items : List Json}
    (h : passed = true ↔ Passes env offline terms path) :
    Tells env offline terms path (Report.resultValue passed path size items) := by
  have hresult : (Report.resultValue passed path size items).get? "result" =
      some (.ofString (if passed then "pass" else "fail")) := by
    simp [Report.resultValue, Json.record, Json.get?]
  refine ⟨?_, ?_, ?_⟩
  · simp [Report.resultValue, Json.record, Json.get?]
  · rw [hresult, ← h]
    cases passed <;> simp [Json.ofString]
  · rw [hresult, ← h]
    cases passed <;> simp [Json.ofString]

/-- In JSON the report is a value that tells about the file. -/
theorem Reports.exists_tells (h : Reports env a terms path r) (hjson : a.output = .json) :
    ∃ v, Tells env a.offline terms path v ∧ r.output = v.spread ++ ['\n'] := by
  have hpassed := h.passed_iff
  obtain ⟨content, -, ⟨u, -, rfl, -⟩ | ⟨ns, -, rfl⟩⟩ := reports_iff_judgement.mp h
  · refine ⟨Report.unreadableValue path content.length u.code u.message, tells_resultValue hpassed, ?_⟩
    simp only [reportUnreadable, hjson]
  · refine ⟨Report.value path content.length ns, tells_resultValue hpassed, ?_⟩
    simp only [reportNits, hjson]

end Steps

section Runs

variable {env : Environment} {a : Arguments} {terms : Terms} {paths : List Text}

end Runs

variable {env : Environment} {args : List Text} {a : Arguments} {terms : Terms}

section Samples

end Samples

end DraftLint.CommandLine
