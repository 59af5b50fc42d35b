import DraftLint.Text.Numeral
import DraftLint.Number.Binary

/-!
# JSON values

Whole numbers and floating-point numbers are told apart, and the fields of an object keep their order.
-/

namespace DraftLint

inductive Json where
  | null
  | bool (b : Bool)
  | int (n : Int)
  | float (x : Number.Binary)
  | text (t : Text)
  | array (items : List Json)
  | object (fields : List (Text × Json))

instance : Inhabited Json :=
  ⟨.null⟩

namespace Json

/-- A field is set; one that is there already keeps its place. -/
def put (fields : List (Text × Json)) (name : Text) (value : Json) : List (Text × Json) :=
  if fields.any (·.1 == name) then
    fields.map fun f => if f.1 == name then (name, value) else f
  else fields ++ [(name, value)]

/-- The value of a field, if the value is an object that has it. -/
def get? (name : String) : Json → Option Json
  | .object fields => (fields.find? (·.1 == name.toList)).map (·.2)
  | _ => none

def isObject : Json → Bool
  | .object _ => true
  | _ => false

/-- Null, false, zero and whatever is empty. -/
def isVoid : Json → Bool
  | .null => true
  | .bool b => !b
  | .int n => n == 0
  | .float (.number _ (.finite m _)) => m == 0
  | .float _ => false
  | .text t => t.isEmpty
  | .array items => items.isEmpty
  | .object fields => fields.isEmpty

def ofString (s : String) : Json :=
  .text s.toList

def ofNat (n : Nat) : Json :=
  .int n

/-- The value, or null. -/
def ofOption {α : Type} (f : α → Json) : Option α → Json
  | some a => f a
  | none => .null

def ofList {α : Type} (f : α → Json) (items : List α) : Json :=
  .array (items.map f)

/-- An object with these fields. -/
def record (fields : List (String × Json)) : Json :=
  .object (fields.map fun f => (f.1.toList, f.2))

end Json
end DraftLint
