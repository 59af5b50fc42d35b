import DraftLint.Proofs.Plain.Front
import DraftLint.Proofs.Plain.RightColumn

/-!
# The date among the cells of the header

The date of a document is the first one in the cells that are searched for a date: those on the right, and those that
have a line to themselves, but for the first line.  The first date of all the cells is another one if it stands on the
left of a second column or makes up the first line.
-/

namespace DraftLint.Plain

open Calendar

/-- A cell of the header. -/
structure Cell where
  text : Text
  /-- Whether a date is looked for in it. -/
  searched : Bool

namespace Cell

def date? (c : Cell) : Option WrittenDate :=
  WrittenDate.read? c.text

/-- The left and the right cell of a line, or the only one, which may be searched. -/
def ofLine (alone : Bool) (line stripped : Text) : List Cell :=
  match FrontPage.columns? line with
  | some (left, right) => [⟨left, false⟩, ⟨right, true⟩]
  | none => [⟨stripped, alone⟩]

/-- The cells of a header with these lines, line by line and from left to right. -/
def ofRun : List (Nat × Text) → List Cell
  | [] => []
  | (_, line) :: rest =>
    ofLine false (Text.trim line) (Text.trim line) ++
      rest.flatMap fun l => ofLine true (Text.trimRight l.2) (Text.trim l.2)

/-- The first date in a cell that is searched. -/
def searchedDate? (cells : List Cell) : Option WrittenDate :=
  (cells.filter Cell.searched).findSome? Cell.date?

theorem searchedDate?_append (cells more : List Cell) :
    searchedDate? (cells ++ more) = (searchedDate? cells).or (searchedDate? more) := by
  rw [searchedDate?, List.filter_append, List.findSome?_append]
  rfl

theorem searchedDate?_singleton (c : Cell) : searchedDate? [c] = if c.searched then c.date? else none := by
  rw [searchedDate?, List.filter_singleton]
  cases c.searched with
  | false => rfl
  | true => simp

theorem searchedDate?_pair (left right : Text) :
    searchedDate? [⟨left, false⟩, ⟨right, true⟩] = WrittenDate.read? right :=
  searchedDate?_singleton ⟨right, true⟩

section First

variable {cells before after : List Cell} {c : Cell} {w : WrittenDate}

theorem searchedDate?_eq_none (h : ∀ c ∈ cells, c.date? = none) : searchedDate? cells = none := by
  rw [searchedDate?, List.findSome?_eq_none_iff]
  intro c hc
  exact h c (List.mem_filter.mp hc).1

/-- If the first date stands in a cell that is searched it is found, and else one of those behind it. -/
theorem searchedDate?_of_first (hbefore : ∀ b ∈ before, b.date? = none) (hc : c.date? = some w) :
    searchedDate? (before ++ c :: after) = if c.searched then some w else searchedDate? after := by
  rw [searchedDate?_append, searchedDate?_eq_none hbefore, Option.none_or, searchedDate?]
  split_ifs with hsearched
  · rw [List.filter_cons_of_pos hsearched, List.findSome?_cons, hc]
  · rw [List.filter_cons_of_neg hsearched]
    rfl

theorem findSome?_of_first (hbefore : ∀ b ∈ before, b.date? = none) (hc : c.date? = some w) :
    (before ++ c :: after).findSome? Cell.date? = some w := by
  rw [List.findSome?_append, List.findSome?_eq_none_iff.mpr hbefore, Option.none_or, List.findSome?_cons, hc]

/-- The first date is found exactly if it is not passed over for another one. -/
theorem searchedDate?_eq_findSome?_iff :
    searchedDate? cells = cells.findSome? Cell.date? ↔
      ∀ before c after w, cells = before ++ c :: after → (∀ b ∈ before, b.date? = none) → c.date? = some w →
        c.searched = false → searchedDate? after = some w := by
  constructor
  · rintro h before c after w rfl hbefore hc hsearched
    rw [findSome?_of_first hbefore hc, searchedDate?_of_first hbefore hc, hsearched] at h
    exact h
  · intro h
    cases hfirst : cells.findSome? Cell.date? with
    | none => exact searchedDate?_eq_none (List.findSome?_eq_none_iff.mp hfirst)
    | some w =>
      obtain ⟨before, c, after, rfl, hc, hbefore⟩ := List.findSome?_eq_some_iff.mp hfirst
      rw [searchedDate?_of_first hbefore hc]
      split_ifs with hsearched
      · rfl
      · exact h before c after w rfl hbefore hc (Bool.not_eq_true _ ▸ hsearched)

end First

end Cell

namespace FrontPage

open Pattern

variable {line left right : Text}

theorem encloses_columns :
    Layout.columns.Encloses fun n p => n = 2 → p = seq (one CharSet.blank.not) (many (one .notNewline)) := by
  simp [Layout.columns, wholeLine, all, textStart, lineEnd, Pattern.blank, atLeast, times, Encloses]

/-- A right column begins with a character that is no blank. -/
theorem right_ne_nil (h : columns? line = some (left, right)) : right ≠ [] := by
  rw [columns?] at h
  obtain ⟨m, hm, h⟩ := Option.bind_eq_some_iff.mp h
  obtain ⟨one, -, h⟩ := Option.bind_eq_some_iff.mp h
  obtain ⟨two, htwo, h⟩ := Option.bind_eq_some_iff.mp h
  obtain ⟨-, rfl⟩ := Prod.mk.inj (Option.some.inj h)
  obtain ⟨u, hread⟩ := reads_of_match? hm
  obtain ⟨p, r, r', hp, hgroup⟩ := group?_of_reads encloses_columns hread htwo
  obtain rfl := hp rfl
  obtain ⟨_, rest, _, rfl, hfirst, -⟩ := hgroup.of_seq
  obtain ⟨c, rfl, hc⟩ := hfirst.of_one
  have hblank : Text.isBlank c = false := by simpa [CharSet.not, CharSet.blank] using hc
  exact List.ne_nil_of_mem (Text.mem_trim (by simp) hblank)

theorem read?_nil : WrittenDate.read? [] = none := by
  decide

theorem date_readRight (num : Nat) (right : Text) (f : FrontPage) :
    (f.readRight num right).header.date = f.header.date.or (WrittenDate.read? right) := by
  cases hf : f.header.date with
  | some w => rw [readRight_of_dated (by rw [hf]; rfl), hf, Option.some_or]
  | none =>
    cases hw : WrittenDate.read? right with
    | some w => rw [readRight_date hf hw]; rfl
    | none =>
      rw [readRight_enter hf hw]
      exact hf

theorem date_readLoneDate (left : Text) (f : FrontPage) :
    (f.readLoneDate left).header.date = f.header.date.or (WrittenDate.read? left) := by
  cases hf : f.header.date with
  | some w => rw [readLoneDate_of_dated (by rw [hf]; rfl), hf, Option.some_or]
  | none =>
    rw [readLoneDate, hf]
    cases hw : WrittenDate.read? left with
    | some w => rfl
    | none => exact hf

theorem date_readFirst (num : Nat) (stripped : Text) (f : FrontPage) :
    (f.readFirst num stripped).header.date =
      f.header.date.or (Cell.searchedDate? (Cell.ofLine false stripped stripped)) := by
  rw [readFirst, Cell.ofLine]
  cases columns? stripped with
  | none =>
    dsimp only
    rw [date_readLeft, Cell.searchedDate?_singleton, if_neg Bool.false_ne_true, Option.or_none]
  | some columns =>
    dsimp only
    rw [date_readLeft, date_readRight, Cell.searchedDate?_pair]

theorem readLoneDate_nil (f : FrontPage) : f.readLoneDate [] = f := by
  rw [readLoneDate, read?_nil, ite_self]

/-- A later line is read cell by cell.  The right cell of two is never blank, so that the left one has its turn for a
date only if it stands alone. -/
theorem readLine_eq (num : Nat) (line : Text) (f : FrontPage) :
    f.readLine num line (Text.trim line) =
      match columns? (Text.trimRight line) with
      | some (left, right) => (f.readCell left).readRight num right
      | none => (f.readCell (Text.trim line)).readLoneDate (Text.trim line) := by
  rw [readLine]
  cases hcolumns : columns? (Text.trimRight line) with
  | none =>
    cases htrim : Text.trim line with
    | nil => exact (readLoneDate_nil f).symm
    | cons c rest => rfl
  | some columns =>
    obtain ⟨left, right⟩ := columns
    obtain ⟨c, rest, rfl⟩ := List.exists_cons_of_ne_nil (right_ne_nil hcolumns)
    rfl

theorem date_readLine (num : Nat) (line : Text) (f : FrontPage) :
    (f.readLine num line (Text.trim line)).header.date =
      f.header.date.or (Cell.searchedDate? (Cell.ofLine true (Text.trimRight line) (Text.trim line))) := by
  have hleft : ∀ left : Text, (f.readCell left).header.date = f.header.date := fun left =>
    congrArg Credits.date (credits_readCell left f)
  rw [readLine_eq, Cell.ofLine]
  cases columns? (Text.trimRight line) with
  | none =>
    dsimp only
    rw [date_readLoneDate, hleft, Cell.searchedDate?_singleton, if_pos rfl]
    rfl
  | some columns =>
    dsimp only
    rw [date_readRight, hleft, Cell.searchedDate?_pair]

theorem date_foldl (lines : List (Nat × Text)) (f : FrontPage) :
    (lines.foldl (fun f l => f.readLine l.1 l.2 (Text.trim l.2)) f).header.date =
      f.header.date.or
        (Cell.searchedDate? (lines.flatMap fun l => Cell.ofLine true (Text.trimRight l.2) (Text.trim l.2))) := by
  induction lines generalizing f with
  | nil => exact (Option.or_none ..).symm
  | cons l lines ih =>
    rw [List.foldl_cons, ih, date_readLine, List.flatMap_cons, Cell.searchedDate?_append, Option.or_assoc]

/-- The front page has the first date that is found in the cells of its lines. -/
theorem date_ofRun (run : List (Nat × Text)) : (ofRun run).header.date = Cell.searchedDate? (Cell.ofRun run) := by
  cases run with
  | nil => rfl
  | cons l rest =>
    rw [ofRun, date_foldl, date_readFirst, Cell.ofRun, Cell.searchedDate?_append]
    rfl

end FrontPage

namespace Document

/-- The date of any text is the first one in the cells of its header that are searched.  It is the first one of all
cells exactly if that is not passed over, or is the next one found. -/
theorem date_ofText (fileName : Option Text) (t : Text) :
    let d := ofText fileName t
    let cells := Cell.ofRun (frontRun d.lines)
    d.scan.page.header.date = (cells.filter Cell.searched).findSome? Cell.date? ∧
      (d.scan.page.header.date = cells.findSome? Cell.date? ↔
        ∀ before c after w, cells = before ++ c :: after → (∀ b ∈ before, b.date? = none) → c.date? = some w →
          c.searched = false → (after.filter Cell.searched).findSome? Cell.date? = some w) := by
  intro d cells
  have hdate : d.scan.page.header.date = Cell.searchedDate? cells := by
    have hpage : d.scan.page = FrontPage.ofRun (frontRun d.lines) := congrArg Front.page (front_scan fileName t)
    rw [hpage, FrontPage.date_ofRun]
  refine ⟨hdate, ?_⟩
  rw [hdate]
  exact Cell.searchedDate?_eq_findSome?_iff

/-- A date on the left of a second column is passed over. -/
theorem date_ne_first :
    let d := ofText none
      "Network Working Group        J. Doe\nMarch 2024        Example Inc\n\n\n   Title\n".toList
    d.scan.page.header.date = none ∧
      (Cell.ofRun (frontRun d.lines)).findSome? Cell.date? = some ⟨none, "March".toList, 2024⟩ := by
  decide +kernel

end Document
end DraftLint.Plain
