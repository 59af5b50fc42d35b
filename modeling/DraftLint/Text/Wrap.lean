import DraftLint.Text.Lines
import DraftLint.Pattern.Build

/-!
# Filling paragraphs

A paragraph is cut into chunks, which are blanks, words, parts of hyphenated words and dashes, and the
chunks are laid out on lines of bounded width.
-/

namespace DraftLint.Text.Wrap

open Pattern

/-- The blanks at which a line may break. -/
def breaking : CharSet := .of "\t\n\x0b\x0c\r "

/-- A word character that is no digit. -/
def wordLetter : CharSet := fun c => isWord c && !isDecimal c

/-- A character that may stand before a dash. -/
def wordEnd : CharSet := .or .word (.of "!\"'&.,?")

def hyphen : CharSet := .only '-'

/-- A chunk: blanks, a dash between words, or a word up to a hyphen, its end, or a dash. -/
def chunk : Pattern :=
  oneOf [
    atLeastOnce (one breaking),
    all [anchor (.after [wordEnd]), atLeast 2 (one hyphen), ahead (one .word)],
    all [one breaking.not, few (one breaking.not),
      oneOf [
        all [one hyphen,
          oneOf [anchor (.after [wordLetter, wordLetter, hyphen]),
            anchor (.after [wordLetter, hyphen, wordLetter, hyphen])],
          ahead (all [one wordLetter, maybe (one hyphen), one wordLetter])],
        ahead (oneOf [one breaking, anchor .textEnd]),
        all [anchor (.after [wordEnd]), ahead (all [atLeast 2 (one hyphen), one .word])]]]]

/-- The text in pieces: the matches, and what is left between them. -/
def cutAt : (skip pos : Nat) → (piece : Text) → List Match → Text → List Text
  | _, _, piece, _, [] => [piece.reverse]
  | skip + 1, pos, piece, ms, c :: t =>
    if skip = 0 then (c :: piece).reverse :: cutAt 0 (pos + 1) [] ms t
    else cutAt skip (pos + 1) (c :: piece) ms t
  | 0, pos, piece, [], c :: t => cutAt 0 (pos + 1) (c :: piece) [] t
  | 0, pos, piece, m :: ms, c :: t =>
    if m.start.pos = pos then
      let size := m.stop.pos - pos
      if size ≤ 1 then piece.reverse :: [c] :: cutAt 0 (pos + 1) [] ms t
      else piece.reverse :: cutAt (size - 1) (pos + 1) [c] ms t
    else cutAt 0 (pos + 1) (c :: piece) (m :: ms) t

/-- The chunks of a paragraph, none of them empty. -/
def chunks (t : Text) : List Text :=
  (cutAt 0 0 [] (chunk.scan t) t).filter (!·.isEmpty)

/-- Tab stops are filled and every other blank at which a line may break becomes a space. -/
def plainBlanks (t : Text) : Text :=
  (expandTabs t).map fun c => if breaking c then ' ' else c

def isBlankChunk (c : Text) : Bool :=
  c.all isBlank

/-- As many chunks as there is room for, and the others. -/
def takeFitting : (room : Int) → List Text → List Text × List Text
  | _, [] => ([], [])
  | room, c :: cs =>
    if (c.length : Int) ≤ room then
      let (taken, left) := takeFitting (room - c.length) cs
      (c :: taken, left)
    else ([], c :: cs)

/-- The position of the last hyphen. -/
def lastHyphen? (t : Text) : Option Nat :=
  (t.reverse.findIdx? (· == '-')).map fun i => t.length - 1 - i

/-- How much of a chunk that is too long for any line goes on a line with `room` characters left: all
that fits, or up to the last hyphen in it that follows something else than hyphens. -/
def breakPoint (room : Nat) (c : Text) : Nat :=
  if c.length > room then
    match lastHyphen? (c.take room) with
    | some i => if i > 0 && (c.take i).any (· != '-') then i + 1 else room
    | none => room
  else room

/-- Blank chunks at the end of a line are dropped, though no more than one. -/
def dropLastBlank (cs : List Text) : List Text :=
  match cs.getLast? with
  | some c => if isBlankChunk c then cs.dropLast else cs
  | none => []

/-- The lines for the chunks.  The first line has the full width, later ones are indented. -/
def layOut (width : Nat) (indent : Text) : (fuel : Nat) → (started : Bool) → List Text → List Text
  | 0, _, _ => []
  | _ + 1, _, [] => []
  | fuel + 1, started, c :: cs =>
    let cs := if started && isBlankChunk c then cs else c :: cs
    let lead := if started then indent else []
    let room : Int := width - lead.length
    let (taken, left) := takeFitting room cs
    let (taken, left) := match left with
      | [] => (taken, [])
      | d :: ds =>
        if (d.length : Int) > room then
          let used := taken.flatten.length
          let cut := breakPoint (if room < 1 then 1 else room.toNat - used) d
          (taken ++ [d.take cut], d.drop cut :: ds)
        else (taken, d :: ds)
    match dropLastBlank taken with
    | [] => layOut width indent fuel started left
    | line => (lead ++ line.flatten) :: layOut width indent fuel true left

/-- The lines of a paragraph. -/
def fill (width : Nat) (indent : Text) (t : Text) : List Text :=
  let cs := chunks (plainBlanks t)
  layOut width indent (cs.flatten.length + 2 * cs.length + 2) false cs

/-- The characters in front of the first word. -/
def margin (line : Text) : Text :=
  line.takeWhile (!isWord ·)

/-- The indentation of continuation lines: the given number of spaces, or else the line's own margin,
or four spaces if it has none. -/
def continuation (indent : Option Int) (line : Text) : Text :=
  match indent.filter (· ≠ 0) with
  | some i => List.replicate i.toNat ' '
  | none => match margin line with
    | [] => List.replicate 4 ' '
    | m => m

/-- The width available on a screen with so many columns, of which at least sixty are used. -/
def screenWidth (columns : Nat) (widest : Int) : Int :=
  min widest (max columns 60)

/-- Every line of the text is filled on its own.  A width below one is refused. -/
def wrap? (columns : Nat) (widest : Int) (indent : Option Int) (t : Text) : Option Text :=
  let width := screenWidth columns widest
  if width ≤ 0 then none
  else some <| join ['\n'] <|
    (lines t).map fun line => join ['\n'] (fill width.toNat (continuation indent line) line)

end DraftLint.Text.Wrap
