import DraftLint.Text.Numeral

/-!
# Unreadable documents

Why the octets of a file are no document at all.
-/

namespace DraftLint

/-- Why a document cannot be read. -/
inductive Unreadable where
  /-- The octets are no text. -/
  | badOctet (line : Nat) (octet : UInt8) (column : Nat)
  /-- The markup is not well formed. -/
  | notWellFormed
deriving DecidableEq

namespace Unreadable

def code : Unreadable → String
  | badOctet .. => "TXT_PARSING_FAILED"
  | notWellFormed => "XML_PARSING_FAILED"

def message : Unreadable → String
  | badOctet line octet column =>
    "Error while parsing line " ++ toString line ++ ": invalid utf-8 byte 0x" ++
      Text.str (Text.hex 2 octet.toNat) ++ " in column " ++ toString column
  | notWellFormed => "The document is not well-formed XML."

/-- A message under its code. -/
def headed (code message : String) : String :=
  code ++ ": " ++ message

end Unreadable

end DraftLint
