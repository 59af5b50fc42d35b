import Std.Time.Zoned
import DraftLint.CommandLine.Run

/-!
# The command

Everything that a run depends on is gathered, and its outcome is written.  The command asks no server:
every page goes unanswered.
-/

namespace DraftLint.CommandLine

/-- The number of a failed operation, which some operations report negated. -/
def errorNumber : IO.Error → Nat
  | .noFileOrDirectory _ code _ | .inappropriateType _ code _ | .permissionDenied _ code _
  | .invalidArgument _ code _ | .hardwareFault code _ | .otherError code _ =>
    (min code (0 - code)).toNat
  | _ => 0

def readFile (path : Text) : IO (Except Unavailable Octets) := do
  try return .ok (← IO.FS.readBinFile (Text.str path)).toList
  catch e => return .error (.ofNumber (errorNumber e))

/-- The files that the arguments may name, each read once. -/
def readFiles (args : List Text) : IO (List (Text × Except Unavailable Octets)) :=
  args.mapM fun path => return (path, ← readFile path)

/-- The present day. -/
def currentDay : IO (Option Date) := do
  let d ← Std.Time.PlainDate.now
  return Date.of? d.year d.month.val d.day.val

/-- The columns of the screen: as many as the environment says, or eighty. -/
def screenColumns : IO Nat := do
  let wanted := (← IO.getEnv "COLUMNS").bind String.toNat?
  return (wanted.filter (· ≠ 0)).getD 80

/-- The outcome of the command with the arguments. -/
def outcome (args : List Text) : IO (Option (Except Failure Outcome)) := do
  let files ← readFiles args
  let columns ← screenColumns
  let find path := ((files.find? (·.1 == path)).map (·.2)).getD (.error .missing)
  return (← currentDay).map fun today => run ⟨today, fun _ => none, find, [], columns⟩ args

end DraftLint.CommandLine

open DraftLint DraftLint.CommandLine in
def main (args : List String) : IO UInt32 := do
  match ← outcome (args.map String.toList) with
  | some (.ok o) =>
    IO.print (Text.str o.output)
    match o.complaint with
    | some c => IO.eprintln ("Error: " ++ Text.str c)
    | none => pure ()
    return o.exitCode.toUInt32
  | _ => return 1
