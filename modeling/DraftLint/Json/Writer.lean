import DraftLint.Json.Value

/-!
# Writing JSON

Values on one line, or spread over lines with two spaces of indentation for each level.  Everything
outside ASCII is escaped.
-/

namespace DraftLint.Json

/-- How floating-point numbers are written. -/
structure FloatForm where
  /-- The point lies at most this far left of the first digit in positional form. -/
  least : Int
  /-- The point lies at most this far right of the first digit in positional form. -/
  most : Int
  infinity : String
  undefined : String

namespace FloatForm

/-- Positional from a ten-thousandth to below ten to the sixteenth. -/
def json : FloatForm := ⟨-3, 16, "Infinity", "NaN"⟩

/-- The exponent has a sign and at least two digits. -/
def exponent (e : Int) : Text :=
  let n := e.natAbs
  'e' :: (if e < 0 then '-' else '+') :: Text.padded 2 n

/-- The digits with a point among them, or with an exponent. -/
def digits (form : FloatForm) (d : Number.Binary.Digits) : Text :=
  let n := d.digits.length
  if form.least ≤ d.point ∧ d.point ≤ form.most then
    if d.point ≤ 0 then "0.".toList ++ List.replicate (-d.point).toNat '0' ++ d.digits
    else if d.point.toNat ≥ n then d.digits ++ List.replicate (d.point.toNat - n) '0' ++ ".0".toList
    else d.digits.take d.point.toNat ++ '.' :: d.digits.drop d.point.toNat
  else
    let mantissa := match d.digits with
      | [c] => [c]
      | c :: cs => c :: '.' :: cs
      | [] => []
    mantissa ++ exponent (d.point - 1)

/-- The text of a floating-point number, with the fewest digits that read back as the same number. -/
def write (form : FloatForm) : Number.Binary → Text
  | .undefined => form.undefined.toList
  | .number negative x =>
    let sign := if negative then ['-'] else []
    sign ++ match x with
      | .infinite => form.infinity.toList
      | .finite m q => if m = 0 then "0.0".toList else form.digits (Number.Binary.shortest m q)

end FloatForm

/-- A code unit as an escape. -/
def escapeUnit (n : Nat) : Text :=
  '\\' :: 'u' :: Text.hex 4 n

/-- A character of a string; beyond the sixteen-bit range it is written as two surrogates. -/
def escape (c : Char) : Text :=
  let n := c.toNat
  if c == '"' then ['\\', '"']
  else if c == '\\' then ['\\', '\\']
  else if c == '\n' then ['\\', 'n']
  else if c == '\r' then ['\\', 'r']
  else if c == '\t' then ['\\', 't']
  else if n == 0x08 then ['\\', 'b']
  else if n == 0x0C then ['\\', 'f']
  else if 0x20 ≤ n && n < 0x7F then [c]
  else if n < 0x10000 then escapeUnit n
  else
    let n := n - 0x10000
    escapeUnit (0xD800 + n / 0x400) ++ escapeUnit (0xDC00 + n % 0x400)

def quote (t : Text) : Text :=
  '"' :: t.flatMap escape ++ ['"']

/-- A line feed and the indentation of a level. -/
def newLine (level : Nat) : Text :=
  '\n' :: List.replicate (2 * level) ' '

/-- What separates the parts of a value at a level, and what stands at its ends. -/
structure Spacing where
  between : Nat → Text
  inside : Nat → Text
  colon : Text

/-- Everything on one line. -/
def Spacing.compact : Spacing :=
  ⟨fun _ => [',', ' '], fun _ => [], [':', ' ']⟩

/-- Each part on a line of its own. -/
def Spacing.spread : Spacing :=
  ⟨fun level => ',' :: newLine level, newLine, [':', ' ']⟩

mutual

/-- The text of a value whose parts stand at the next level. -/
def write (s : Spacing) (level : Nat) : Json → Text
  | .null => "null".toList
  | .bool b => (if b then "true" else "false").toList
  | .int n => Text.ofInt n
  | .float x => FloatForm.json.write x
  | .text t => quote t
  | .array [] => ['[', ']']
  | .array (v :: vs) =>
    '[' :: s.inside (level + 1) ++ write s (level + 1) v ++ writeItems s (level + 1) vs ++
      s.inside level ++ [']']
  | .object [] => ['\x7b', '\x7d']
  | .object ((name, v) :: fs) =>
    '\x7b' :: s.inside (level + 1) ++ quote name ++ s.colon ++ write s (level + 1) v ++
      writeFields s (level + 1) fs ++ s.inside level ++ ['\x7d']

/-- The items after the first. -/
def writeItems (s : Spacing) (level : Nat) : List Json → Text
  | [] => []
  | v :: vs => s.between level ++ write s level v ++ writeItems s level vs

/-- The fields after the first. -/
def writeFields (s : Spacing) (level : Nat) : List (Text × Json) → Text
  | [] => []
  | (name, v) :: fs =>
    s.between level ++ quote name ++ s.colon ++ write s level v ++ writeFields s level fs

end

/-- The value on one line. -/
def compact (v : Json) : Text :=
  write .compact 0 v

/-- The value spread over lines. -/
def spread (v : Json) : Text :=
  write .spread 0 v

end DraftLint.Json
