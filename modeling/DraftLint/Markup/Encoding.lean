import DraftLint.Markup.Prolog
import DraftLint.Text.Utf8

/-!
# Encodings of markup

The text of the octets of a document, which may begin with a byte order mark and may name its encoding
on the first line.
-/

namespace DraftLint.Markup

inductive Encoding where
  | utf8
  | latin1
  | ascii
deriving DecidableEq

namespace Encoding

def names : Encoding → List String
  | utf8 => ["utf-8", "utf8"]
  | latin1 => ["iso-8859-1", "iso_8859-1", "iso8859-1", "latin1", "latin-1", "l1"]
  | ascii => ["us-ascii", "ascii"]

/-- The encoding that goes by the name, whatever the case of its letters. -/
def ofName? (t : Text) : Option Encoding :=
  [utf8, latin1, ascii].find? fun e => e.names.any fun n => Text.lower t == n.toList

/-- Every octet as the character of that number. -/
def single (bs : Octets) : Text :=
  bs.map fun b => Char.ofNat b.toNat

def decode? (e : Encoding) (bs : Octets) : Option Text :=
  match e with
  | utf8 => (Utf8.decode bs).toOption
  | latin1 => some (single bs)
  | ascii => if bs.all (· < 0x80) then some (single bs) else none

/-- The octets without a byte order mark, if they begin with one. -/
def afterMark? : Octets → Option Octets
  | 0xEF :: 0xBB :: 0xBF :: bs => some bs
  | _ => none

/-- The encoding that the first line names, or else the usual one. -/
def declared? (bs : Octets) : Option Encoding := do
  let (first, _) ← Read.firstLine.run (Source.ofText (single bs))
  match first.encoding with
  | some name => ofName? name
  | none => some utf8

end Encoding

/-- The text of the octets of a document. -/
def decode? (bs : Octets) : Option Text :=
  match Encoding.afterMark? bs with
  | some bs => Encoding.utf8.decode? bs
  | none => do
    let e ← Encoding.declared? bs
    e.decode? bs

end DraftLint.Markup
