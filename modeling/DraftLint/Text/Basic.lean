import DraftLint.Text.Character

/-!
# Text

A text is a list of characters, and lengths and columns count characters.
-/

namespace DraftLint

/-- Characters in reading order. -/
abbrev Text := List Char

namespace Text

/-- What holds of the characters of a text is found out by going through the text, not through all characters. -/
instance (priority := high) (p : Char → Prop) [DecidablePred p] (t : Text) : Decidable (∀ c ∈ t, p c) :=
  List.decidableBAll p t

/-- The string with these characters. -/
def str (t : Text) : String :=
  String.ofList t

/-- The text begins with `lead`. -/
def startsWith (lead t : Text) : Bool :=
  lead.isPrefixOf t

/-- The text ends with `tail`. -/
def endsWith (tail t : Text) : Bool :=
  tail.isSuffixOf t

/-- Somewhere in the text stands `part`. -/
def contains (part : Text) : Text → Bool
  | [] => part.isEmpty
  | c :: t => startsWith part (c :: t) || contains part t

/-- The text is one of some names. -/
def isOneOf (t : Text) (names : List String) : Bool :=
  names.any fun n => t == n.toList

/-- The characters with `p` at the end are dropped. -/
def dropRightWhile (p : Char → Bool) (t : Text) : Text :=
  (t.reverse.dropWhile p).reverse

def trimLeft (t : Text) : Text :=
  t.dropWhile isBlank

def trimRight (t : Text) : Text :=
  dropRightWhile isBlank t

/-- The text without the blanks at both ends. -/
def trim (t : Text) : Text :=
  trimRight (trimLeft t)

/-- The pieces between the separators; there is one more of them than separators. -/
def splitOn (sep : Char) : Text → List Text
  | [] => [[]]
  | c :: t =>
    if c = sep then [] :: splitOn sep t
    else match splitOn sep t with
      | [] => [[c]]
      | piece :: pieces => (c :: piece) :: pieces

/-- The maximal runs of characters that are not blank. -/
def words : Text → List Text
  | [] => []
  | c :: t =>
    if isBlank c then words t
    else match t with
      | [] => [[c]]
      | d :: _ => if isBlank d then [c] :: words t
        else match words t with
          | [] => [[c]]
          | word :: rest => (c :: word) :: rest

/-- The pieces in a row with `sep` between neighbours. -/
def join (sep : Text) (pieces : List Text) : Text :=
  sep.intercalate pieces

/-- Every run of blanks becomes one space, and none is left at the ends. -/
def squeeze (t : Text) : Text :=
  join [' '] (words t)

/-- The part before the first `sep` and the part after it; the second is empty if there is none. -/
def cut (sep : Char) (t : Text) : Text × Text :=
  (t.takeWhile (· ≠ sep), (t.dropWhile (· ≠ sep)).drop 1)

/-- Every `old` is replaced by `new`, from the left; an empty `old` changes nothing. -/
def replaceAll (old new : Text) (t : Text) : Text :=
  go 0 t
where
  go : Nat → Text → Text
    | _, [] => []
    | skip + 1, _ :: t => go skip t
    | 0, c :: t =>
      if !old.isEmpty && startsWith old (c :: t) then new ++ go (old.length - 1) t
      else c :: go 0 t

/-- The items in order of their first occurrence. -/
def distinct {α : Type} [BEq α] (items : List α) : List α :=
  go [] items
where
  go (seen : List α) : List α → List α
    | [] => seen
    | x :: xs => if seen.contains x then go seen xs else go (seen ++ [x]) xs

/-- Order by code points, the shorter of two texts first if it begins the other. -/
def le : Text → Text → Bool
  | [], _ => true
  | _ :: _, [] => false
  | c :: s, d :: t => c.toNat < d.toNat || (c == d && le s t)

/-- The distinct texts in rising order. -/
def sortedSet (ts : List Text) : List Text :=
  (distinct ts).mergeSort le

end Text
end DraftLint
