import DraftLint.Json.Writer
import DraftLint.Text.Quoted

/-!
# Values in running text

The form in which a value that stands where a text is expected is shown: a text as it is, and any other
value spelled out, with the texts inside it quoted.
-/

namespace DraftLint.Json

/-- Infinite and undefined numbers are written small. -/
def FloatForm.plain : FloatForm := ⟨-3, 16, "inf", "nan"⟩

mutual

/-- A value inside another one. -/
def plainInner : Json → Text
  | .null => "None".toList
  | .bool b => (if b then "True" else "False").toList
  | .int n => Text.ofInt n
  | .float x => FloatForm.plain.write x
  | .text t => Text.quoted t
  | .array [] => ['[', ']']
  | .array (v :: vs) => '[' :: plainInner v ++ plainItems vs ++ [']']
  | .object [] => ['\x7b', '\x7d']
  | .object ((name, v) :: fs) =>
    '\x7b' :: Text.quoted name ++ [':', ' '] ++ plainInner v ++ plainFields fs ++ ['\x7d']

def plainItems : List Json → Text
  | [] => []
  | v :: vs => [',', ' '] ++ plainInner v ++ plainItems vs

def plainFields : List (Text × Json) → Text
  | [] => []
  | (name, v) :: fs => [',', ' '] ++ Text.quoted name ++ [':', ' '] ++ plainInner v ++ plainFields fs

end

/-- The value as running text. -/
def plain : Json → Text
  | .text t => t
  | v => plainInner v

end DraftLint.Json
