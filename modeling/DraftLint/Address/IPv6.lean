import DraftLint.Address.IPv4

/-!
# IPv6 addresses

Groups of hexadecimal digits in running text, their values, and the networks that decide what they are
used for.
-/

namespace DraftLint.Address

/-- An address as a number of 128 bits. -/
structure IPv6 where
  value : Nat
deriving DecidableEq

namespace IPv6

open Pattern

def hexDigit : CharSet := .or .digit (.range 'a' 'f')

/-- Two to seven groups with colons, and one more group or a dotted quad. -/
def pattern : Pattern :=
  ignoreCase <| all [
    anchor (.notAfter [.or .word (.of ":.")]),
    between 2 5 (seq (upTo 4 (one hexDigit)) (lit ":")),
    oneOf [IPv4.quad, upTo 4 (one hexDigit)],
    notAhead (one (.or .word (.only ':')))]

/-- The candidates in a text, in order. -/
def candidatesIn (t : Text) : List Text :=
  (pattern.scan t).map Match.text

/-- One to four hexadecimal digits. -/
def group? (t : Text) : Option Nat :=
  if t.isEmpty || t.length > 4 || !t.all Text.isHexDigit then none
  else some (Text.ofHexDigits t)

/-- The parts between the colons; a dotted quad at the end counts as two groups. -/
def parts? (t : Text) : Option (List Text) :=
  let parts := Text.splitOn ':' t
  if parts.length < 3 then none
  else match parts.getLast? with
    | some last =>
      if last.any (· == '.') then
        (IPv4.read? last).map fun a =>
          parts.dropLast ++
            [Nat.toDigits 16 (a.value / 65536), Nat.toDigits 16 (a.value % 65536)]
      else some parts
    | none => none

def ofGroups (gs : List Nat) : IPv6 :=
  ⟨gs.foldl (fun n g => 65536 * n + g) 0⟩

/-- All groups in a row, if each is one. -/
def groups? (ts : List Text) : Option (List Nat) :=
  ts.mapM group?

/-- The address whose groups before and after a gap are given; the gap stands for at least one group of
zeros. -/
def acrossGap? (front back : List Text) : Option IPv6 := do
  if front.length + back.length ≥ 8 then none
  let front ← groups? front
  let back ← groups? back
  some (ofGroups (front ++ List.replicate (8 - front.length - back.length) 0 ++ back))

/-- The address that a text writes: eight groups, or fewer with one gap between two colons. -/
def read? (t : Text) : Option IPv6 := do
  let parts ← parts? t
  if parts.length > 9 then none
  let inner := (parts.drop 1).dropLast
  match (inner.zipIdx 1).filter (fun p => p.1.isEmpty) with
  | [(_, at_)] =>
    let front := parts.take at_
    let back := parts.drop (at_ + 1)
    -- an empty part at either end belongs to the gap
    let front ← if front.head? == some [] then
        (if front.length = 1 then some [] else none) else some front
    let back ← if back.getLast? == some [] then
        (if back.length = 1 then some [] else none) else some back
    acrossGap? front back
  | [] =>
    if parts.length ≠ 8 then none
    else (groups? parts).map ofGroups
  | _ => none

/-- The network with these leading bits; `top` holds the first 32 bits. -/
def network (top bits : Nat) : Network :=
  ⟨top <<< 96, 128 - bits⟩

def documentation : Network := network 0x20010DB8 32
def uniqueLocal : Network := network 0xFC000000 7
def linkLocal : Network := network 0xFE800000 10

/-- What an address in a document is objectionable for. -/
inductive Concern where
  | uniqueLocal
  | linkLocal
  | generic
deriving DecidableEq, Repr

/-- The unspecified address, the loopback address and those for documentation may stand. -/
def concern? (a : IPv6) : Option Concern :=
  if documentation.has a.value || a.value == 1 || a.value == 0 then none
  else if uniqueLocal.has a.value then some .uniqueLocal
  else if linkLocal.has a.value then some .linkLocal
  else some .generic

end IPv6
end DraftLint.Address
