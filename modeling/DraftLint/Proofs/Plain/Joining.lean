import DraftLint.Proofs.Plain.Listing
import DraftLint.Proofs.Text.LineEnds

/-!
# Texts joined by a line feed

Words, names and addresses are looked for on every visible line on its own, and what is found does not depend on
where the line stands: on the front page, in the references or in a block of code.  So what is found in a text
and another one after it is what is found in the first and then what is found in the second.
-/

namespace DraftLint

namespace Plain

/-- What is found on lines whatever their setting. -/
structure Words where
  hosts : List Text
  ipv4 : List Text
  ipv6 : List Text
  copyrightYears : List Nat
  keywords : List Located
  combinations : List (Text × Place)
  citesRfc2119 : Bool
  citesRfc8174 : Bool

def Items.words (items : Items) : Words where
  hosts := items.hosts
  ipv4 := items.ipv4
  ipv6 := items.ipv6
  copyrightYears := items.copyrightYears
  keywords := items.keywords
  combinations := items.combinations
  citesRfc2119 := items.citesRfc2119
  citesRfc8174 := items.citesRfc8174

namespace Words

def none : Words :=
  ⟨[], [], [], [], [], [], false, false⟩

def append (w w' : Words) : Words where
  hosts := w.hosts ++ w'.hosts
  ipv4 := w.ipv4 ++ w'.ipv4
  ipv6 := w.ipv6 ++ w'.ipv6
  copyrightYears := w.copyrightYears ++ w'.copyrightYears
  keywords := w.keywords ++ w'.keywords
  combinations := w.combinations ++ w'.combinations
  citesRfc2119 := w.citesRfc2119 || w'.citesRfc2119
  citesRfc8174 := w.citesRfc8174 || w'.citesRfc8174

/-- The words with `n` more lines in front. -/
def below (n : Nat) (w : Words) : Words :=
  { w with
    keywords := w.keywords.map fun k => { k with line := k.line + n }
    combinations := w.combinations.map fun c => (c.1, { c.2 with line := c.2.line + n }) }

/-- The words on a line. -/
def ofLine (num : Nat) (line : Text) : Words :=
  if Text.isVisible line then (Items.empty.addWords num line (Text.trim line)).words else none

def ofLines : List (Nat × Text) → Words
  | [] => none
  | (num, line) :: lines => (ofLine num line).append (ofLines lines)

@[simp] theorem none_append (w : Words) : none.append w = w := by
  simp [append, none]

@[simp] theorem append_none (w : Words) : w.append none = w := by
  simp [append, none]

theorem append_assoc (w w' w'' : Words) :
    (w.append w').append w'' = w.append (w'.append w'') := by
  simp [append, Bool.or_assoc]

@[simp] theorem below_none (n : Nat) : none.below n = none := rfl

theorem below_append (n : Nat) (w w' : Words) :
    (w.append w').below n = (w.below n).append (w'.below n) := by
  simp [append, below]

theorem below_ofLine (n num : Nat) (line : Text) : (ofLine num line).below n = ofLine (num + n) line := by
  unfold ofLine
  split_ifs
  · simp [Items.words, Items.addWords, Items.empty, below, Function.comp_def]
  · exact below_none n

theorem ofLines_append (lines lines' : List (Nat × Text)) :
    ofLines (lines ++ lines') = (ofLines lines).append (ofLines lines') := by
  induction lines with
  | nil => simp [ofLines]
  | cons l lines ih => simp [ofLines, ih, append_assoc]

theorem ofLines_singleton (num : Nat) (line : Text) : ofLines [(num, line)] = ofLine num line := by
  simp [ofLines]

/-- Lines further down have the same words further down. -/
theorem ofLines_numberFrom (n num : Nat) (ls : List Text) :
    ofLines (Text.numberFrom (num + n) ls) = (ofLines (Text.numberFrom num ls)).below n := by
  induction ls generalizing num with
  | nil => rfl
  | cons line ls ih =>
    have hrest := ih (num + 1)
    rw [Nat.add_right_comm] at hrest
    simp only [Text.numberFrom, ofLines, below_append, below_ofLine, hrest]

end Words

/-- The words of a line are added, wherever the line stands. -/
theorem Items.words_addLine (setting : Setting) (num : Nat) (line next : Text) (items : Items)
    (h : Text.isVisible line) :
    (items.addLine setting num line (Text.trim line) next).words = items.words.append (Words.ofLine num line) := by
  rw [Words.ofLine, if_pos h]
  simp only [addLine, addReferences]
  split_ifs <;> simp [Items.words, addLayout, addWords, Items.empty, Words.append]

/-- The line has a form feed, which starts a page. -/
def startsPage (line : Text) : Bool :=
  line.any (· == '\x0c')

namespace Scan

variable {ls : List Text} {s : Scan}

theorem pageCount_place (num : Nat) (line stripped : Text) (h : s.part ≠ some .header) :
    (s.place num line stripped).pageCount = s.pageCount := by
  have hbody : (s.readBody num line stripped).pageCount = s.pageCount := by
    have hw := congrArg Scan.pageCount (withoutParts_readBody num line stripped h)
    exact hw
  simp only [place]
  split_ifs
  · rfl
  · rfl
  · rfl
  · rfl
  · exact hbody

theorem pageCount_readLine (num : Nat) (line next : Text) (h : s.part ≠ some .header) :
    (s.readLine num line next).pageCount = s.pageCount + if startsPage line then 1 else 0 := by
  have hplace := pageCount_place (s := s.note num line (Text.trim line) next) num line (Text.trim line) h
  by_cases hp : startsPage line = true
  · have hfeed : line.any (· == '\x0c') = true := hp
    simp only [readLine, hp, hfeed, if_true]
  · have hfeed : ¬line.any (· == '\x0c') = true := hp
    simp only [readLine, hp, hfeed, Bool.false_eq_true, if_false, Nat.add_zero]
    split_ifs
    · rfl
    · exact hplace

theorem Reached.words (h : Reached ls s) : s.items.words = Words.ofLines (Text.numberFrom 1 ls) := by
  refine h.overLines (motive := fun lines s => s.items.words = Words.ofLines lines) rfl ?_
  intro ls s h _ ih line next
  rw [Words.ofLines_append, ← ih]
  rw [items_readLine _ line next h.fronted.part_ne_header]
  rw [Words.ofLines_singleton]
  split_ifs with hl
  · exact Items.words_addLine _ _ _ _ _ hl
  · rw [Words.ofLine, if_neg hl, Words.append_none]

theorem Reached.pageCount (h : Reached ls s) : s.pageCount = ls.countP startsPage + 1 := by
  induction h with
  | start => rfl
  | @line ls s h line next ih =>
    rw [pageCount_readLine _ line next h.fronted.part_ne_header, ih, List.countP_append, List.countP_singleton]
    omega

end Scan

namespace Document

variable {a : Text}

theorem words_ofText (fileName : Option Text) (t : Text) :
    (ofText fileName t).scan.items.words = Words.ofLines (ofText fileName t).lines := by
  rw [items_ofText]
  exact (Scan.Reached.readLines (Text.lines (prepare t))).words

theorem pageCount_ofText (fileName : Option Text) (t : Text) :
    (ofText fileName t).scan.pageCount = (Text.lines (prepare t)).countP startsPage + 1 := by
  have hclose : ∀ n (s : Scan), (s.closePart n).pageCount = s.pageCount := by
    intro n s
    unfold Scan.closePart
    split <;> rfl
  exact (hclose _ _).trans (Scan.Reached.readLines (Text.lines (prepare t))).pageCount

/-- The lines of a text come before those of what follows a line feed. -/
theorem lines_prepare_append (h : '\r' ∉ a) (b : Text) :
    Text.lines (prepare (a ++ '\n' :: b)) = Text.lines (prepare a) ++ Text.lines (prepare b) := by
  have hends : Text.unifyLineEnds (a ++ '\n' :: b) = Text.unifyLineEnds a ++ '\n' :: Text.unifyLineEnds b := by
    rw [Text.unifyLineEnds_append h, Text.unifyLineEnds_eq_self h, Text.unifyLineEnds_cons (by decide)]
  rw [prepare, hends, Text.expandTabs, Text.expandTabsFrom_append_newline]
  exact Text.splitOn_append_cons '\n' _ _

theorem length_lines_prepare (h : '\r' ∉ a) : (Text.lines (prepare a)).length = (Text.lines a).length := by
  rw [prepare, Text.unifyLineEnds_eq_self h, Text.length_lines_expandTabs]

/-- What is found in a text and then, further down, what is found in the text after it; and the page breaks of
both. -/
theorem words_ofText_append (h : '\r' ∉ a) (b : Text) (fileName fileNameA fileNameB : Option Text) :
    (ofText fileName (a ++ '\n' :: b)).scan.items.words =
      (ofText fileNameA a).scan.items.words.append
        ((ofText fileNameB b).scan.items.words.below (Text.lines a).length) ∧
    ((ofText fileName (a ++ '\n' :: b)).scan.pageCount : Int) - 1 =
      (((ofText fileNameA a).scan.pageCount : Int) - 1) + (((ofText fileNameB b).scan.pageCount : Int) - 1) := by
  have hlines := lines_prepare_append h b
  constructor
  · simp only [words_ofText]
    calc Words.ofLines (Text.numberFrom 1 (Text.lines (prepare (a ++ '\n' :: b))))
        = (Words.ofLines (Text.numberFrom 1 (Text.lines (prepare a)))).append
            (Words.ofLines (Text.numberFrom (1 + (Text.lines a).length) (Text.lines (prepare b)))) := by
          rw [hlines, Text.numberFrom_append, length_lines_prepare h, Words.ofLines_append]
      _ = _ := by
          rw [Words.ofLines_numberFrom]
          rfl
  · rw [pageCount_ofText, pageCount_ofText, pageCount_ofText, hlines, List.countP_append]
    omega

/-- The first text ends in its references, and the second has a page break. -/
theorem words_ofText_append_references :
    '\r' ∉ "A\n\n\nB\n\n1. References\n\n[RFC2119] MUST".toList ∧
    (ofText none "A\n\n\nB\n\n1. References\n\n[RFC2119] MUST\n\x0c\nMAY NOT at b.example".toList).scan.items.words =
      (ofText none "A\n\n\nB\n\n1. References\n\n[RFC2119] MUST".toList).scan.items.words.append
        ((ofText none "\x0c\nMAY NOT at b.example".toList).scan.items.words.below 8) ∧
    (ofText none "\x0c\nMAY NOT at b.example".toList).scan.items.keywords = [⟨"MAY NOT".toList, 2⟩] ∧
    (ofText none "A\n\n\nB\n\n1. References\n\n[RFC2119] MUST\n\x0c\nMAY NOT at b.example".toList).scan.items.keywords =
      [⟨"MUST".toList, 8⟩, ⟨"MAY NOT".toList, 10⟩] := by
  have hreturn : '\r' ∉ "A\n\n\nB\n\n1. References\n\n[RFC2119] MUST".toList := by decide
  have hjoin := words_ofText_append hreturn "\x0c\nMAY NOT at b.example".toList none none none
  exact ⟨hreturn, hjoin.1, by decide +kernel, by decide +kernel⟩

end Document
end Plain
end DraftLint
