import DraftLint.Text.Basic

/-!
# UTF-8

Octets of a text, and the text of octets.  Decoding stops at the first ill-formed sequence, or puts the
replacement character for every one.
-/

namespace DraftLint

abbrev Octets := List UInt8

namespace Utf8

/-- The first unit of an octet string. -/
inductive Piece where
  | char (c : Char) (size : Nat)
  /-- The longest run that begins a character but is not one. -/
  | bad (size : Nat)

def Piece.size : Piece → Nat
  | .char _ n => n
  | .bad n => n

/-- The value of a following octet, which lies from `lo` to `hi`. -/
def follow? (lo hi : Nat) (b : UInt8) : Option Nat :=
  if lo ≤ b.toNat && b.toNat ≤ hi then some (b.toNat - 0x80) else none

/-- The value of the octet in front, which lies from `lo` to `hi`. -/
def head? (lo hi : Nat) : Octets → Option (Nat × Octets)
  | [] => none
  | b :: bs => (follow? lo hi b).map fun v => (v, bs)

/-- Three octets: `lead` is the part from the first, and the second lies from `lo` to `hi`. -/
def three (lead lo hi : Nat) (bs : Octets) : Piece :=
  match head? lo hi bs with
  | none => .bad 1
  | some (v, bs) =>
    match head? 0x80 0xBF bs with
    | none => .bad 2
    | some (w, _) => .char (Char.ofNat (lead * 4096 + v * 64 + w)) 3

/-- Four octets: `lead` is the part from the first, and the second lies from `lo` to `hi`. -/
def four (lead lo hi : Nat) (bs : Octets) : Piece :=
  match head? lo hi bs with
  | none => .bad 1
  | some (v, bs) =>
    match head? 0x80 0xBF bs with
    | none => .bad 2
    | some (w, bs) =>
      match head? 0x80 0xBF bs with
      | none => .bad 3
      | some (x, _) => .char (Char.ofNat (lead * 262144 + v * 4096 + w * 64 + x)) 4

/-- The unit that starts with octet `b`, with `bs` after it. -/
def first (b : UInt8) (bs : Octets) : Piece :=
  let n := b.toNat
  if n < 0x80 then .char (Char.ofNat n) 1
  else if n < 0xC2 then .bad 1
  else if n < 0xE0 then
    match head? 0x80 0xBF bs with
    | none => .bad 1
    | some (v, _) => .char (Char.ofNat ((n - 0xC0) * 64 + v)) 2
  else if n < 0xF0 then
    three (n - 0xE0) (if n = 0xE0 then 0xA0 else 0x80) (if n = 0xED then 0x9F else 0xBF) bs
  else if n < 0xF5 then
    four (n - 0xF0) (if n = 0xF0 then 0x90 else 0x80) (if n = 0xF4 then 0x8F else 0xBF) bs
  else .bad 1

/-- The units of octets of which the first `skip` belong to an earlier unit. -/
def piecesFrom : (skip : Nat) → Octets → List Piece
  | _, [] => []
  | skip + 1, _ :: bs => piecesFrom skip bs
  | 0, b :: bs =>
    let p := first b bs
    p :: piecesFrom (p.size - 1) bs

/-- The characters of the units, or the number of octets before the first ill-formed one. -/
def collect : List Piece → Except Nat Text
  | [] => .ok []
  | .bad _ :: _ => .error 0
  | .char c n :: ps =>
    match collect ps with
    | .ok t => .ok (c :: t)
    | .error k => .error (n + k)

/-- The text, or the number of octets before the first ill-formed sequence. -/
def decode (bs : Octets) : Except Nat Text :=
  collect (piecesFrom 0 bs)

/-- The text, with the replacement character for each ill-formed sequence. -/
def decodeLossy (bs : Octets) : Text :=
  (piecesFrom 0 bs).map fun
    | .char c _ => c
    | .bad _ => Char.ofNat 0xFFFD

/-- The octets of a text. -/
def encode (t : Text) : Octets :=
  t.flatMap String.utf8EncodeChar

end Utf8
end DraftLint
