import DraftLint.CommandLine.Arguments
import DraftLint.Report
import DraftLint.Review
import DraftLint.Text.Quoted

/-!
# Runs of the command

What the command writes and how it ends: every document is read and reviewed in turn, and the command
succeeds if none of them has an error.
-/

namespace DraftLint.CommandLine

/-- Why a file cannot be read. -/
inductive Unavailable where
  | missing
  | directory
  /-- Something above it in the path is a file. -/
  | belowFile
  | longName
  | forbidden
  /-- Reading stopped half way. -/
  | broken
deriving DecidableEq, Repr

namespace Unavailable

/-- The number of the error and its wording. -/
def wording : Unavailable → String
  | missing => "[Errno 2] No such file or directory"
  | directory => "[Errno 21] Is a directory"
  | belowFile => "[Errno 20] Not a directory"
  | longName => "[Errno 36] File name too long"
  | forbidden => "[Errno 13] Permission denied"
  | broken => "[Errno 5] Input/output error"

/-- The reason that the number of an error stands for. -/
def ofNumber : Nat → Unavailable
  | 2 => missing
  | 21 => directory
  | 20 => belowFile
  | 36 => longName
  | 13 => forbidden
  | _ => broken

/-- The message about a file. -/
def message (u : Unavailable) (path : Text) : Text :=
  "Could not read ".toList ++ path ++ (": " ++ u.wording ++ ": ").toList ++ Text.quoted path

end Unavailable

/-- An installed package. -/
structure Package where
  name : Text
  version : Text
  requirements : List Text

/-- Everything around a run that its outcome depends on. -/
structure Environment where
  today : Date
  world : World
  files : Text → Except Unavailable Octets
  packages : List Package
  /-- The columns of the screen. -/
  columns : Nat

structure Outcome where
  exitCode : Nat
  output : Text
  /-- Why the run ended early. -/
  complaint : Option Text

/-! ## The version -/

def programName : Text := "idnits".toList
def programVersion : Text := "3.0.0".toList

/-- A name and a version on a line. -/
def versionLine (margin name version : Text) : Text :=
  margin ++ name ++ ' ' :: version ++ ['\n']

def Environment.package? (env : Environment) (name : Text) : Option Package :=
  env.packages.find? (·.name == name)

/-- The name of the package that a requirement is about. -/
def requiredName (requirement : Text) : Text :=
  requirement.takeWhile fun c => !";[<>=!~ ".toList.contains c

/-- The versions of the installed packages that the program requires. -/
def requiredVersions (env : Environment) : Text :=
  match env.package? programName with
  | none => []
  | some p => p.requirements.flatMap fun r =>
    match env.package? (requiredName r) with
    | some q => versionLine "  ".toList q.name q.version
    | none => []

/-- The version of the program, and if wanted those of what it requires. -/
def versions (env : Environment) (verbose : Bool) : Text :=
  versionLine [] programName programVersion ++ if verbose then requiredVersions env else []

/-! ## Documents -/

/-- What is written about one file, and whether it passed. -/
structure Written where
  output : Text
  passed : Bool

/-- The report about a file that cannot be read as a document. -/
def reportUnreadable (env : Environment) (a : Arguments) (path : Text) (size : Nat) (u : Unreadable) :
    Written :=
  let output := match a.output with
    | .json => (Report.unreadableValue path size u.code u.message).spread ++ ['\n']
    | .count => "1\n".toList
    | .pretty => Report.prettyUnreadable env.columns path u.code u.message
  ⟨output, false⟩

/-- The report about the nits of a file. -/
def reportNits (env : Environment) (a : Arguments) (path : Text) (size : Nat) (ns : List Nit) :
    Written :=
  let output := match a.output with
    | .json => (Report.value path size ns).spread ++ ['\n']
    | .count => Text.ofNat ns.length ++ ['\n']
    | .pretty => Report.pretty env.columns a.verbose path ns
  ⟨output, !Nit.anyError ns⟩

/-- How documents are judged. -/
structure Terms where
  mode : Mode
  standard : Standard

/-- The report about the content of a file. -/
def reportContent (env : Environment) (a : Arguments) (terms : Terms) (path : Text)
    (content : Octets) : Except Failure Written :=
  match Document.ofFile (some path) content with
  | .error u => .ok (reportUnreadable env a path content.length u)
  | .ok d => do
    let ns ← ((Review.nitsIn terms.mode a.offline terms.standard d).run env.world .empty).1
    return reportNits env a path content.length ns

/-- The outcome of the documents from one on, given what was written and whether all passed so far. -/
def documents (env : Environment) (a : Arguments) (terms : Terms) :
    (written : Text) → (passed : Bool) → List Text → Except Failure Outcome
  | written, passed, [] => .ok ⟨if passed then 0 else 1, written, none⟩
  | written, passed, path :: paths =>
    match env.files path with
    | .error u => .ok ⟨1, written, some (u.message path)⟩
    | .ok content => do
      let r ← reportContent env a terms path content
      let shown := if a.silent then [] else r.output
      documents env a terms (written ++ shown) (passed && r.passed) paths

/-- The first year that a copyright notice may be expected to show. -/
def firstYear : Int := 1970

/-- The year may be expected today. -/
def isPossibleYear (today : Date) (year : Int) : Bool :=
  firstYear ≤ year && year ≤ (today.year : Int) + 1

/-- A run that ends with a complaint before any document. -/
def refused (complaint : Text) : Outcome :=
  ⟨1, [], some complaint⟩

/-- The outcome of a run with arguments that were understood. -/
def follow (env : Environment) (a : Arguments) : Except Failure Outcome :=
  if a.version then .ok ⟨0, versions env a.verbose, none⟩
  else if a.documents.isEmpty then .ok (refused "No document given".toList)
  else do
    let mode ← a.mode
    let year ← a.year
    match year.filter fun y => !isPossibleYear env.today y with
    | some y => return refused ("Unexpected year: ".toList ++ Text.ofInt y)
    | none => documents env a ⟨mode, env.today, year⟩ [] true a.documents

/-- The outcome of a run. -/
def run (env : Environment) (args : List Text) : Except Failure Outcome :=
  match Arguments.of args with
  | .error .help => .ok ⟨0, [], none⟩
  | .error .misuse => .ok ⟨2, [], none⟩
  | .ok a => follow env a

end DraftLint.CommandLine
