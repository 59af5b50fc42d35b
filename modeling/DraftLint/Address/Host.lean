import DraftLint.Pattern.Build
import DraftLint.Text.Case

/-!
# Host names

Domain names in running text, and those of them that may stand in a document.
-/

namespace DraftLint.Address.Host

open Pattern

def alphanumeric : CharSet := .or .lower .digit

/-- A label of at most 63 letters, digits and inner hyphens. -/
def label : Pattern :=
  seq (one alphanumeric)
    (maybe (seq (upTo 61 (one (.or alphanumeric (.only '-')))) (one alphanumeric)))

/-- The last label: letters only, or an internationalized one. -/
def topLabel : Pattern :=
  oneOf [between 2 61 (one .lower),
    seq (lit "xn--") (between 1 58 (one (.or alphanumeric (.only '-'))))]

/-- A full domain name, which is group 1. -/
def pattern : Pattern :=
  ignoreCase <| all [
    anchor (.notAfter [.or .word (.of ".-")]),
    group 1 (seq (atLeastOnce (seq label (lit "."))) topLabel),
    notAhead (oneOf [one (.or .word (.of "@-")), seq (lit ".") (one (.or .word (.only '-')))])]

/-- The domain names in a text, in order. -/
def namesIn (t : Text) : List Text :=
  (pattern.scan t).filterMap (·.group? 1)

/-- Endings of file names, which look like top-level names. -/
def fileExtensions : List String :=
  ["txt", "xml", "html", "htm", "pdf", "json", "yang", "xsd", "dtd", "rnc", "py", "js", "md", "png",
    "svg", "jpg", "gif", "css", "csv", "zip", "gz", "tgz", "tar", "sh", "abnf", "asn", "mib", "cbor",
    "cddl", "exe", "c", "h"]

/-- Names set aside for examples, and names of organizations that documents refer to. -/
def allowedDomains : List String :=
  ["example.com", "example.net", "example.org", "ietf.org", "rfc-editor.org", "iana.org", "irtf.org",
    "iab.org", "ietf.info", "w3.org", "ieee.org", "iso.org", "itu.int", "doi.org", "github.com"]

/-- Top-level names that are never delegated, and the infrastructure one. -/
def reservedLabels : List String :=
  ["example", "test", "invalid", "localhost", "local", "arpa"]

/-- The part after the last full stop. -/
def lastLabel (name : Text) : Text :=
  ((Text.splitOn '.' name).getLast?).getD []

/-- The name is one that documents may use: it ends in a reserved label, or is an allowed domain or
below one. -/
def isExample (name : Text) : Bool :=
  let name := Text.dropRightWhile (· == '.') (Text.lower name)
  Text.isOneOf (lastLabel name) reservedLabels ||
    allowedDomains.any fun d => name == d.toList || Text.endsWith ('.' :: d.toList) name

/-- The name is one of a file. -/
def isFileName (name : Text) : Bool :=
  Text.isOneOf (lastLabel (Text.lower name)) fileExtensions

end DraftLint.Address.Host
