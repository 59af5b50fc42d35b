import DraftLint.Pattern.Build
import DraftLint.Text.Case
import DraftLint.Issue.Basic

/-!
# File names

The parts of a path, the format that a name or the content stands for, and the names that drafts may
have.
-/

namespace DraftLint.FileName

/-- The part after the last slash. -/
def base (path : Text) : Text :=
  (path.reverse.takeWhile (· != '/')).reverse

/-- A name without and with its extension, which starts at the last full stop.  Full stops in front of
a name start no extension. -/
def splitExtension (path : Text) : Text × Text :=
  let ending := path.reverse.takeWhile fun c => c != '/' && c != '.'
  let front := path.reverse.drop ending.length
  match front with
  | '.' :: stem =>
    if (stem.takeWhile (· != '/')).any (· != '.') then (stem.reverse, '.' :: ending.reverse)
    else (path, [])
  | _ => (path, [])

/-- The name of the file without extension, and the extension in small letters without full stops. -/
def split (path : Text) : Text × Text :=
  let (stem, ext) := splitExtension (base path)
  (stem, Text.lower (ext.dropWhile (· == '.')))

/-- Octets that may stand before the first element: a byte order mark and blanks. -/
def isFiller (b : UInt8) : Bool :=
  [0xEF, 0xBB, 0xBF, 0x20, 0x09, 0x0D, 0x0A].contains b

/-- The format of a file, by the extension of its name or else by its first octet. -/
def format (path : Option Text) (content : List UInt8) : Format :=
  let ext := Text.lower (splitExtension (path.getD [])).2
  if ext == ".xml".toList then .markup
  else if ext == ".txt".toList then .text
  else if (content.dropWhile isFiller).head? == some 0x3C then .markup
  else .text

open Pattern in
/-- Small letters, digits and dashes. -/
def plain : Pattern :=
  wholeLine [atLeastOnce (one (.or .lower (.or .digit (.only '-'))))]

open Pattern in
/-- The revision at the end of a draft name. -/
def revision : Pattern :=
  all [lit "-", one .decimal, one .decimal, lineEnd]

/-- The name without its revision. -/
def withoutRevision (name : Text) : Text :=
  revision.substitute [] name

/-- A draft name starts with `draft-`, has no empty component, and has at least two components more. -/
def isMalformed (base : Text) : Bool :=
  let name := withoutRevision base
  !Text.startsWith "draft-".toList name || Text.contains "--".toList name ||
    Text.endsWith ['-'] name || (Text.splitOn '-' name).length < 3

end DraftLint.FileName
