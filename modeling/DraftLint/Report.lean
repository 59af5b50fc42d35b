import DraftLint.FileName
import DraftLint.Json.Writer
import DraftLint.Nit
import DraftLint.Text.Wrap

/-!
# Reports

The nits of a document as a summary, as a text to be read, and as a JSON value.
-/

namespace DraftLint.Report

/-- The number of nits of a severity, with the word for it. -/
def tally (ns : List Nit) (s : Severity) : String :=
  Issue.counted (Nit.ofSeverity s ns).length s.long

/-- How many nits there are of each severity. -/
def summary (ns : List Nit) : String :=
  "Found " ++ ", ".intercalate (Severity.reported.map (tally ns)) ++ "."

/-- The column of a place, unless it is missing or zero. -/
def column? (p : Place) : Option Nat :=
  p.column.filter (· ≠ 0)

/-- A place in a file. -/
def placeText (file : Text) (p : Place) : Text :=
  let position := match column? p with
    | some column => s!"({p.line}:{column})"
    | none => s!"({p.line})"
  file ++ position.toList

/-- The places of a nit. -/
def placeTexts (file : Text) (n : Nit) : List Text :=
  (n.places.getD []).map (placeText file)

/-- The places shown at most in a short report. -/
def maxPlaces : Nat := 3

/-- The lines about places: all of them one by one, or the first few and how many more there are. -/
def placeLines (verbose : Bool) (places : List Text) : Text :=
  if places.isEmpty then []
  else if verbose then places.flatMap fun p => "      ".toList ++ p ++ ['\n']
  else
    let more := places.length - maxPlaces
    "    At ".toList ++ Text.join [',', ' '] (places.take maxPlaces) ++
      (if more = 0 then [] else s!" and {more} more".toList) ++ ['\n']

/-- A message under its code, as an item of a list. -/
def itemLines (columns : Nat) (code message : String) : Text :=
  let line := ("  * [" ++ code ++ "] " ++ message).toList
  (Text.Wrap.wrap? columns 120 (some 4) line).getD line ++ ['\n']

/-- The lines about a page that explains a nit. -/
def referenceLines (reference : Option String) : Text :=
  match reference.filter (!·.isEmpty) with
  | some r => ("    See " ++ r ++ "\n").toList
  | none => []

/-- Everything about one nit. -/
def nitLines (columns : Nat) (verbose : Bool) (file : Text) (n : Nit) : Text :=
  itemLines columns n.code n.message ++ referenceLines n.reference ++
    placeLines verbose (placeTexts file n)

/-- The line above the items of a severity. -/
def headingLines (s : Severity) : Text :=
  ("\n" ++ s.heading ++ ":\n\n").toList

/-- The nits of one severity. -/
def severityLines (columns : Nat) (verbose : Bool) (file : Text) (ns : List Nit) (s : Severity) :
    Text :=
  let found := Nit.ofSeverity s ns
  if found.isEmpty then []
  else headingLines s ++ found.flatMap (nitLines columns verbose file)

/-- The line about the file. -/
def fileLine (path : Text) : Text :=
  "Inspecting file ".toList ++ path ++ ['\n']

/-- The report to be read, for a screen with so many columns. -/
def pretty (columns : Nat) (verbose : Bool) (path : Text) (ns : List Nit) : Text :=
  fileLine path ++
    Severity.reported.flatMap (severityLines columns verbose (FileName.base path) ns) ++
    ("\n" ++ summary ns ++ "\n\n").toList

/-- The report about a document that cannot be read. -/
def prettyUnreadable (columns : Nat) (path : Text) (code message : String) : Text :=
  fileLine path ++ headingLines .error ++ itemLines columns code message ++ ['\n']

/-! ## JSON -/

def placeValue (p : Place) : Json :=
  .record <| ("line", .ofNat p.line) :: match column? p with
    | some column => [("col", .ofNat column)]
    | none => []

/-- A message under its code. -/
def itemFields (code message : String) : List (String × Json) :=
  [("code", .ofString code), ("desc", .ofString message)]

def nitValue (n : Nit) : Json :=
  .record <| itemFields n.code n.message ++
    (match n.reference.filter (!·.isEmpty) with
      | some r => [("ref", .ofString r)]
      | none => []) ++
    match n.places.getD [] with
    | [] => []
    | places => [("line", .ofList placeValue places)]

/-- The result for a file of so many octets. -/
def resultValue (passed : Bool) (path : Text) (size : Nat) (items : List Json) : Json :=
  .record [("result", .ofString (if passed then "pass" else "fail")),
    ("file", .record [("path", .text path), ("size", .ofNat size)]),
    ("nits", .array items)]

/-- The nits of a file; it passes if none of them is an error. -/
def value (path : Text) (size : Nat) (ns : List Nit) : Json :=
  resultValue (!Nit.anyError ns) path size (ns.map nitValue)

/-- The result for a document that cannot be read. -/
def unreadableValue (path : Text) (size : Nat) (code message : String) : Json :=
  resultValue false path size [.record (itemFields code message)]

end DraftLint.Report
