import DraftLint.Text.Numeral

/-!
# Quoted text

Text between quotation marks, with escapes for whatever cannot be printed.
-/

namespace DraftLint.Text

/-- A character between marks of the given kind. -/
def quotedChar (mark c : Char) : Text :=
  let n := c.toNat
  if c == mark || c == '\\' then ['\\', c]
  else if c == '\n' then ['\\', 'n']
  else if c == '\r' then ['\\', 'r']
  else if c == '\t' then ['\\', 't']
  else if isPrintable c then [c]
  else if n < 0x100 then '\\' :: 'x' :: hex 2 n
  else if n < 0x10000 then '\\' :: 'u' :: hex 4 n
  else '\\' :: 'U' :: hex 8 n

/-- Single marks, or double ones around a text that has single marks and no double ones. -/
def quoted (t : Text) : Text :=
  let mark := if t.any (· == '\'') && t.all (· != '"') then '"' else '\''
  mark :: t.flatMap (quotedChar mark) ++ [mark]

end DraftLint.Text
