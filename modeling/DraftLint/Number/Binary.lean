/-!
# Binary floating point

Numbers with 53 significant bits: the one nearest to a fraction, and the fewest decimal digits that
read back as the same number.
-/

namespace DraftLint.Number

/-- A magnitude `m * 2 ^ q`, or one beyond the largest. -/
inductive Magnitude where
  | finite (m : Nat) (q : Int)
  | infinite

/-- A floating-point number. -/
inductive Binary where
  | number (negative : Bool) (magnitude : Magnitude)
  | undefined

namespace Binary

/-- The significant bits of a number. -/
def precision : Nat := 53

/-- The exponents of the smallest and the largest unit in the last place. -/
def minExponent : Int := -1074
def maxExponent : Int := 971

/-- The numerator and denominator of `n * 2 ^ q` over `d`. -/
def scale (n d : Nat) (q : Int) : Nat × Nat :=
  if q ≥ 0 then (n * Nat.pow 2 q.toNat, d) else (n, d * Nat.pow 2 (-q).toNat)

/-- The nearest natural number to a fraction, of two the even one. -/
def roundDiv (n d : Nat) : Nat :=
  let whole := n / d
  let twice := 2 * (n % d)
  if twice < d then whole
  else if twice > d then whole + 1
  else if whole % 2 = 0 then whole else whole + 1

/-- The magnitude nearest to the fraction `n / d`. -/
def nearest (n d : Nat) : Magnitude :=
  if n = 0 then .finite 0 minExponent
  else
    let guess : Int := (n.log2 : Int) - d.log2 - precision + 1
    let fits := fun (q : Int) => let (a, b) := scale n d (-q); a / b ≥ Nat.pow 2 (precision - 1)
    let q := max minExponent (if fits guess then guess else guess - 1)
    let (a, b) := scale n d (-q)
    let m := roundDiv a b
    let (m, q) := if m = Nat.pow 2 precision then (Nat.pow 2 (precision - 1), q + 1) else (m, q)
    if q > maxExponent then .infinite else .finite m q

/-- The magnitude nearest to `n * 10 ^ e`. -/
def ofScientific (n : Nat) (e : Int) : Magnitude :=
  let places : Int := (Nat.toDigits 10 n).length
  if n = 0 then .finite 0 minExponent
  else if places + e > 400 then .infinite
  else if places + e < -400 then .finite 0 minExponent
  else if e ≥ 0 then nearest (n * Nat.pow 10 e.toNat) 1
  else nearest n (Nat.pow 10 (-e).toNat)

/-- Digits with the position of the decimal point, counted from the first digit. -/
structure Digits where
  digits : List Char
  point : Int

/-- The least `k` with the fraction `n / d` below `10 ^ k`. -/
def decimalPoint (n d : Nat) : Int :=
  if n ≥ d then (Nat.toDigits 10 (n / d)).length
  else
    let j := ((List.range 400).find? fun j => n * Nat.pow 10 j ≥ d).getD 0
    1 - (j : Int)

/-- Of the two neighbours of `m * 2 ^ q` on the grid of `count` digits, the nearer one that rounds to it. -/
def onGrid? (m : Nat) (q : Int) (point : Int) (count : Nat) : Option Nat :=
  let unit : Int := point - count
  -- everything is measured in quarters of the last place, over a common denominator
  let (a, b) := scale 1 1 (q - 2)
  let (un, ud) := if unit ≥ 0 then (Nat.pow 10 unit.toNat, 1) else (1, Nat.pow 10 (-unit).toNat)
  let one := a * ud
  let grid := un * b
  let value := 4 * m * one
  let high := (4 * m + 2) * one
  let low := (if m = Nat.pow 2 (precision - 1) ∧ q > minExponent then 4 * m - 1 else 4 * m - 2) * one
  let inside := fun (x : Nat) =>
    if m % 2 = 0 then low ≤ x && x ≤ high else low < x && x < high
  let below := value / grid
  let above := below + 1
  match inside (below * grid), inside (above * grid) with
  | true, true => if value - below * grid ≤ above * grid - value then some below else some above
  | true, false => some below
  | false, true => some above
  | false, false => none

/-- The fewest digits that read back as `m * 2 ^ q`, which is not zero. -/
def shortest (m : Nat) (q : Int) : Digits :=
  let (n, d) := scale m 1 q
  let point := decimalPoint n d
  let found := (List.range 17).findSome? fun i =>
    (onGrid? m q point (i + 1)).map fun x => (i + 1, x)
  let (count, x) := found.getD (1, 0)
  let digits := Nat.toDigits 10 x
  let point := point + (digits.length - count : Int)
  let digits := (digits.reverse.dropWhile (· == '0')).reverse
  ⟨digits, point⟩

end Binary
end DraftLint.Number
