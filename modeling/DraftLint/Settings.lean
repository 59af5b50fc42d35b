import DraftLint.Json.Value

/-!
# Settings

Named settings in the order in which they were first made.  Names that begin with two low lines are
reserved and left out.
-/

namespace DraftLint

structure Settings where
  values : List (Text × Json)

namespace Settings

def isReserved (name : Text) : Bool :=
  Text.startsWith ['_', '_'] name

/-- The settings with these values. -/
def ofValues (values : List (Text × Json)) : Settings :=
  ⟨(values.filter fun v => !isReserved v.1).foldl (fun vs v => Json.put vs v.1 v.2) []⟩

/-- The settings with some of them changed or added. -/
def changed (s : Settings) (changes : List (Text × Json)) : Settings :=
  ofValues (s.values ++ changes)

/-- The settings as one value. -/
def value (s : Settings) : Json :=
  .object s.values

end Settings
end DraftLint
