import DraftLint.Json.Value

/-!
# Reading JSON

The reader takes the grammar of JSON, and besides it the words for numbers that are infinite or
undefined.  Of two fields with one name the later one holds.
-/

namespace DraftLint.Json.Reader

/-- What was read, with the text after it. -/
abbrev Read (α : Type) := Option (α × Text)

def skipBlanks (t : Text) : Text :=
  t.dropWhile fun c => c == ' ' || c == '\t' || c == '\n' || c == '\r'

/-- The value of four hexadecimal digits. -/
def hexUnit? : Text → Option (Nat × Text)
  | a :: b :: c :: d :: t => do
    let a ← Text.hexDigit? a
    let b ← Text.hexDigit? b
    let c ← Text.hexDigit? c
    let d ← Text.hexDigit? d
    pure (4096 * a + 256 * b + 16 * c + d, t)
  | _ => none

def shortEscape? : Char → Option Char
  | '"' => some '"'
  | '\\' => some '\\'
  | '/' => some '/'
  | 'b' => some '\x08'
  | 'f' => some '\x0c'
  | 'n' => some '\n'
  | 'r' => some '\r'
  | 't' => some '\t'
  | _ => none

/-- The character for a code unit; a high surrogate joins with a low one that is escaped after it. -/
def escaped? (t : Text) : Read Char :=
  match hexUnit? t with
  | none => none
  | some (unit, t) =>
    if 0xD800 ≤ unit && unit < 0xDC00 then
      match t with
      | '\\' :: 'u' :: t' =>
        match hexUnit? t' with
        | some (low, t'') =>
          if 0xDC00 ≤ low && low < 0xE000 then
            some (Char.ofNat (0x10000 + (unit - 0xD800) * 0x400 + (low - 0xDC00)), t'')
          else some (Char.ofNat 0xFFFD, t)
        | none => some (Char.ofNat 0xFFFD, t)
      | _ => some (Char.ofNat 0xFFFD, t)
    else if 0xDC00 ≤ unit && unit < 0xE000 then some (Char.ofNat 0xFFFD, t)
    else some (Char.ofNat unit, t)

/-- The rest of a string after its opening quote; `out` is what was read, backwards. -/
def string? : (fuel : Nat) → (out : List Char) → Text → Read Text
  | 0, _, _ => none
  | _ + 1, _, [] => none
  | _ + 1, out, '"' :: t => some (out.reverse, t)
  | fuel + 1, out, '\\' :: 'u' :: t =>
    match escaped? t with
    | some (c, t) => string? fuel (c :: out) t
    | none => none
  | fuel + 1, out, '\\' :: c :: t =>
    match shortEscape? c with
    | some c => string? fuel (c :: out) t
    | none => none
  | _ + 1, _, ['\\'] => none
  | fuel + 1, out, c :: t =>
    if c.toNat < 0x20 then none else string? fuel (c :: out) t

/-- The digits in front. -/
def digits (t : Text) : List Nat × Text :=
  ((t.takeWhile Char.isDigit).map fun c => c.toNat - '0'.toNat, t.dropWhile Char.isDigit)

/-- The digits after a point, if there are any. -/
def fraction (t : Text) : List Nat × Text :=
  match t with
  | '.' :: t' => match digits t' with
    | ([], _) => ([], t)
    | r => r
  | _ => ([], t)

/-- The exponent, if there is one. -/
def exponent (t : Text) : Option Int × Text :=
  match t with
  | e :: t' =>
    if e == 'e' || e == 'E' then
      let (sign, t'') : Int × Text := match t' with
        | '-' :: t'' => (-1, t'')
        | '+' :: t'' => (1, t'')
        | _ => (1, t')
      match digits t'' with
      | ([], _) => (none, t)
      | (ds, rest) => (some (sign * Text.ofDigits ds), rest)
    else (none, t)
  | [] => (none, t)

/-- A number without its sign. -/
def magnitude? (negative : Bool) (t : Text) : Read Json :=
  let (whole, rest) := match t with
    | '0' :: t => ([0], t)
    | t => digits t
  if whole.isEmpty then none
  else
    let (part, rest) := fraction rest
    let (power, rest) := exponent rest
    if part.isEmpty && power.isNone then
      if whole.length > Text.maxNumeralDigits then none
      else
        let n : Int := Text.ofDigits whole
        some (.int (if negative then -n else n), rest)
    else
      let x := Number.Binary.ofScientific (Text.ofDigits (whole ++ part)) (power.getD 0 - part.length)
      some (.float (.number negative x), rest)

/-- The rest of the text after a word. -/
def word? (word : String) (t : Text) : Option Text :=
  if Text.startsWith word.toList t then some (t.drop word.length) else none

/-- A value without parts. -/
def atom? (t : Text) : Read Json :=
  match t with
  | '-' :: t' =>
    match word? "Infinity" t' with
    | some rest => some (.float (.number true .infinite), rest)
    | none => magnitude? true t'
  | _ =>
    (word? "null" t).map (.null, ·) <|>
    (word? "true" t).map (.bool true, ·) <|>
    (word? "false" t).map (.bool false, ·) <|>
    (word? "NaN" t).map (.float .undefined, ·) <|>
    (word? "Infinity" t).map (.float (.number false .infinite), ·) <|>
    magnitude? false t

mutual

/-- A value, with no blanks before it. -/
def value? : (fuel : Nat) → Text → Read Json
  | 0, _ => none
  | fuel + 1, t =>
    match t with
    | '"' :: t' => (string? (t'.length + 1) [] t').map fun r => (.text r.1, r.2)
    | '[' :: t' =>
      match skipBlanks t' with
      | ']' :: rest => some (.array [], rest)
      | t'' => items? fuel [] t''
    | '\x7b' :: t' =>
      match skipBlanks t' with
      | '\x7d' :: rest => some (.object [], rest)
      | t'' => fields? fuel [] t''
    | t => atom? t

/-- The items of an array from one of them on; `out` holds those before, backwards. -/
def items? : (fuel : Nat) → (out : List Json) → Text → Read Json
  | 0, _, _ => none
  | fuel + 1, out, t =>
    match value? fuel t with
    | none => none
    | some (v, t) =>
      match skipBlanks t with
      | ',' :: t => items? fuel (v :: out) (skipBlanks t)
      | ']' :: t => some (.array (v :: out).reverse, t)
      | _ => none

/-- The fields of an object from one of them on; `out` holds those before. -/
def fields? : (fuel : Nat) → (out : List (Text × Json)) → Text → Read Json
  | 0, _, _ => none
  | fuel + 1, out, t =>
    match t with
    | '"' :: t =>
      match string? (t.length + 1) [] t with
      | none => none
      | some (name, t) =>
        match skipBlanks t with
        | ':' :: t =>
          match value? fuel (skipBlanks t) with
          | none => none
          | some (v, t) =>
            let out := put out name v
            match skipBlanks t with
            | ',' :: t => fields? fuel out (skipBlanks t)
            | '\x7d' :: t => some (.object out, t)
            | _ => none
        | _ => none
    | _ => none

end

/-- The value that the text writes, with blanks around it allowed. -/
def read? (t : Text) : Option Json :=
  match value? (t.length + 1) (skipBlanks t) with
  | some (v, rest) => if (skipBlanks rest).isEmpty then some v else none
  | none => none

end DraftLint.Json.Reader
