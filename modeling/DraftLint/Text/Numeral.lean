import DraftLint.Text.Basic

/-!
# Numerals

Reading and writing whole numbers in decimal.
-/

namespace DraftLint.Text

/-- The most digits that a numeral may have. -/
def maxNumeralDigits : Nat := 4300

/-- The number with these digit values, the highest place first. -/
def ofDigits (ds : List Nat) : Nat :=
  ds.foldl (fun n d => 10 * n + d) 0

/-- The values of digits, which may be grouped by single low lines between them. -/
def groupedDigits? : Text → Option (List Nat)
  | [] => none
  | [c] => (digitValue? c).map fun d => [d]
  | c :: '_' :: t => do
    let d ← digitValue? c
    let ds ← groupedDigits? t
    pure (d :: ds)
  | c :: t => do
    let d ← digitValue? c
    let ds ← groupedDigits? t
    pure (d :: ds)

/-- The natural number written by grouped digits. -/
def natural? (t : Text) : Option Nat := do
  let ds ← groupedDigits? t
  if ds.length ≤ maxNumeralDigits then some (ofDigits ds) else none

/-- A blank that may stand around a numeral; the information separators may not. -/
def isNumeralBlank (c : Char) : Bool :=
  isBlank c && !(0x1C ≤ c.toNat && c.toNat ≤ 0x1F)

/-- The whole number that a text writes: blanks around it, a sign, and digits of any script. -/
def integer? (t : Text) : Option Int :=
  match dropRightWhile isNumeralBlank (t.dropWhile isNumeralBlank) with
  | '-' :: t => (natural? t).map fun n => -(n : Int)
  | '+' :: t => (natural? t).map Int.ofNat
  | t => (natural? t).map Int.ofNat

/-- The decimal numeral of a natural number. -/
def ofNat (n : Nat) : Text :=
  Nat.toDigits 10 n

/-- The decimal numeral of a whole number, with a sign only if it is negative. -/
def ofInt : Int → Text
  | .ofNat n => ofNat n
  | .negSucc n => '-' :: ofNat (n + 1)

/-- The numeral with zeros in front up to a width. -/
def padded (width n : Nat) : Text :=
  let ds := ofNat n
  List.replicate (width - ds.length) '0' ++ ds

/-- The text is not empty and holds decimal or ornamental digits only. -/
def allDigits (t : Text) : Bool :=
  !t.isEmpty && t.all isDigitLike

/-- The value of a hexadecimal digit of either case. -/
def hexDigit? (c : Char) : Option Nat :=
  if c.isDigit then some (c.toNat - '0'.toNat)
  else if 'a' ≤ c && c ≤ 'f' then some (c.toNat - 'a'.toNat + 10)
  else if 'A' ≤ c && c ≤ 'F' then some (c.toNat - 'A'.toNat + 10)
  else none

def isHexDigit (c : Char) : Bool :=
  (hexDigit? c).isSome

/-- The value of a hexadecimal digit, and zero for any other character. -/
def hexDigit (c : Char) : Nat :=
  (hexDigit? c).getD 0

/-- The number that hexadecimal digits write. -/
def ofHexDigits (t : Text) : Nat :=
  t.foldl (fun n c => 16 * n + hexDigit c) 0

/-- The small hexadecimal numeral with zeros in front up to a width. -/
def hex (width n : Nat) : Text :=
  let ds := Nat.toDigits 16 n
  List.replicate (width - ds.length) '0' ++ ds

end DraftLint.Text
