import DraftLint.Text.Numeral

/-!
# Resource identifiers

The form of references to resources: a scheme, an authority, a path, a query and a fragment, of which
most may be missing.
-/

namespace DraftLint.Markup.Uri

def isUnreserved (c : Char) : Bool :=
  c.isAlphanum || "-._~".toList.contains c

/-- The character may part the pieces of a component. -/
def isInnerDelimiter (c : Char) : Bool :=
  "!$&'()*+,;=".toList.contains c

def inName (c : Char) : Bool :=
  isUnreserved c || isInnerDelimiter c

def inSegment (c : Char) : Bool :=
  inName c || c == ':' || c == '@'

def inPath (c : Char) : Bool :=
  inSegment c || c == '/'

def inQuery (c : Char) : Bool :=
  inPath c || c == '?'

/-- Square brackets are common in fragments and tolerated there. -/
def inFragment (c : Char) : Bool :=
  inQuery c || c == '[' || c == ']'

/-- What is left after the longest run of characters with `p`, and of octets that are written as a
percent sign and two hexadecimal digits. -/
def dropRun (p : Char → Bool) : Text → Text
  | [] => []
  | '%' :: a :: b :: t =>
    if Text.isHexDigit a && Text.isHexDigit b then dropRun p t else '%' :: a :: b :: t
  | c :: t => if p c then dropRun p t else c :: t

/-! ## Components -/

/-- What follows the scheme and its colon. -/
def afterScheme? : Text → Option Text
  | [] => none
  | c :: t =>
    match t.dropWhile fun c => c.isAlphanum || c == '+' || c == '-' || c == '.' with
    | ':' :: rest => if c.isAlpha then some rest else none
    | _ => none

/-- What follows the host, which is a name, or an address in square brackets. -/
def afterHost? : Text → Option Text
  | '[' :: t =>
    match t.dropWhile (· != ']') with
    | ']' :: rest => some rest
    | _ => none
  | t => some (dropRun inName t)

def maxPort : Nat := 2147483647

/-- What follows the port, if there is one; after a colon it must not be missing. -/
def afterPort? : Text → Option Text
  | ':' :: t =>
    match Text.natural? (t.takeWhile Char.isDigit) with
    | some n => if n ≤ maxPort then some (t.dropWhile Char.isDigit) else none
    | none => none
  | t => some t

/-- What follows the user, if one is named. -/
def afterUser (t : Text) : Text :=
  match dropRun (fun c => inName c || c == ':') t with
  | '@' :: rest => rest
  | _ => t

def afterAuthority? (t : Text) : Option Text := do
  afterPort? (← afterHost? (afterUser t))

/-- What follows a path that begins with a slash or is empty. -/
def afterSegments : Text → Text
  | '/' :: t => dropRun inPath t
  | t => t

/-- Nothing follows but a query and a fragment. -/
def endsWell (t : Text) : Bool :=
  let t := match t with
    | '?' :: query => dropRun inQuery query
    | t => t
  let t := match t with
    | '#' :: fragment => dropRun inFragment fragment
    | t => t
  t.isEmpty

/-! ## References -/

/-- The text is well formed after its scheme. -/
def isHierarchy : Text → Bool
  | '/' :: '/' :: t => ((afterAuthority? t).map afterSegments).any endsWell
  | t => endsWell (dropRun inPath t)

/-- The text is well formed without a scheme; no colon may stand before the first slash. -/
def isRelative : Text → Bool
  | '/' :: '/' :: t => ((afterAuthority? t).map afterSegments).any endsWell
  | t => endsWell (afterSegments (dropRun (fun c => inSegment c && c != ':') t))

/-- The text has the form of a reference to a resource, and a scheme. -/
def isAbsolute (t : Text) : Bool :=
  (afterScheme? t).any isHierarchy

/-- The text has the form of a reference to a resource, with or without a scheme. -/
def isReference (t : Text) : Bool :=
  isAbsolute t || isRelative t

end DraftLint.Markup.Uri
