import DraftLint.Pattern.Build
import DraftLint.Text.Numeral

/-!
# IPv4 addresses

Dotted quads in running text, their values, and the networks that decide what they are used for.
-/

namespace DraftLint.Address

/-- An address as a number of 32 bits. -/
structure IPv4 where
  value : Nat
deriving DecidableEq

/-- The addresses that share their leading bits with one. -/
structure Network where
  address : Nat
  /-- The number of bits below the shared ones. -/
  hostBits : Nat

namespace Network

def has (n : Network) (address : Nat) : Bool :=
  address >>> n.hostBits == n.address >>> n.hostBits

end Network

namespace IPv4

open Pattern

/-- Four numbers with full stops between. -/
def quad : Pattern :=
  all [digits, lit ".", digits, lit ".", digits, lit ".", digits]

/-- A quad that stands alone. -/
def pattern : Pattern :=
  all [wordEdge, quad, wordEdge]

/-- The candidates in a text, in order. -/
def candidatesIn (t : Text) : List Text :=
  (pattern.scan t).map Match.text

def ofOctets (a b c d : Nat) : IPv4 :=
  ⟨((a * 256 + b) * 256 + c) * 256 + d⟩

/-- A number up to 255 of at most three digits and without a zero in front. -/
def octet? (t : Text) : Option Nat :=
  if t.isEmpty || !t.all Char.isDigit || t.length > 3 then none
  else if t.length > 1 && t.head? == some '0' then none
  else
    let n := Text.ofDigits (t.map fun c => c.toNat - '0'.toNat)
    if n ≤ 255 then some n else none

/-- The address that a text writes. -/
def read? (t : Text) : Option IPv4 :=
  match (Text.splitOn '.' t).map octet? with
  | [some a, some b, some c, some d] => some (ofOctets a b c d)
  | _ => none

/-- The address in dotted form. -/
def text (a : IPv4) : Text :=
  Text.join ['.'] <| [24, 16, 8, 0].map fun shift => Text.ofNat ((a.value >>> shift) % 256)

def network (a b c d bits : Nat) : Network :=
  ⟨(ofOctets a b c d).value, 32 - bits⟩

/-- The networks set aside for documentation. -/
def documentation : List Network :=
  [network 192 0 2 0 24, network 198 51 100 0 24, network 203 0 113 0 24, network 233 252 0 0 24]

def privateUse : List Network :=
  [network 10 0 0 0 8, network 172 16 0 0 12, network 192 168 0 0 16]

def loopback : Network := network 127 0 0 0 8
def multicast : Network := network 224 0 0 0 4

/-- What an address in a document is objectionable for. -/
inductive Concern where
  | privateUse
  | multicast
  | generic
deriving DecidableEq, Repr

/-- No address of a documentation network, no loopback address, and neither the first nor the last
address of all may be objected to. -/
def concern? (a : IPv4) : Option Concern :=
  if documentation.any (·.has a.value) then none
  else if loopback.has a.value || a.value == 0 || a.value == 0xFFFFFFFF then none
  else if privateUse.any (·.has a.value) then some .privateUse
  else if multicast.has a.value then some .multicast
  else some .generic

end IPv4
end DraftLint.Address
