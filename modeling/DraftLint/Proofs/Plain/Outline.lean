import DraftLint.Proofs.Contents
import DraftLint.Proofs.Plain.Run

/-!
# Tables of contents

A table of contents stands behind the front page and before the first part.  Its lines end in the numbers of pages,
so they open no part, and no part is open that they could end or belong to.
-/

namespace DraftLint.Plain.Scan

/-- The scan after further lines, of which the first has the number after `n`, each read with a view to some text as
the line behind it. -/
def readOn (n : Nat) (s : Scan) : List (Text × Text) → Scan
  | [] => s
  | (line, next) :: rest => (s.readLine (n + 1) line next).readOn (n + 1) rest

/-- Two scans have found the same title, name and parts, and the same lines in each part. -/
structure SameOutline (s s' : Scan) : Prop where
  part : s'.part = s.part
  extents : s'.extents = s.extents
  content : s'.content = s.content
  title : s'.title = s.title
  titleLine : s'.titleLine = s.titleLine
  slug : s'.slug = s.slug
  slugLine : s'.slugLine = s.slugLine

namespace SameOutline

variable {s s' s'' : Scan}

theorem refl (s : Scan) : SameOutline s s :=
  ⟨rfl, rfl, rfl, rfl, rfl, rfl, rfl⟩

theorem trans (h : SameOutline s s') (h' : SameOutline s' s'') : SameOutline s s'' :=
  ⟨h'.part.trans h.part, h'.extents.trans h.extents, h'.content.trans h.content, h'.title.trans h.title,
    h'.titleLine.trans h.titleLine, h'.slug.trans h.slug, h'.slugLine.trans h.slugLine⟩

end SameOutline

variable {n num : Nat} {line stripped next : Text} {s : Scan}

/-- With no part open, a line that opens none does no more than announce a kind of references. -/
theorem readBody_of_part_none (h : s.part = none) (ho : Heading.opened? stripped = none) :
    s.readBody num line stripped = { s with subsection := Heading.kindAfter stripped s.subsection } := by
  have hleave : s.leavesAbstract line stripped = false := by simp [leavesAbstract, h]
  by_cases hd : Heading.divides stripped = true
  · rw [readBody_of_divides hd, ho, closePart_of_part_none h]
  · rw [readBody_of_not_divides (Bool.not_eq_true _ ▸ hd), leave, hleave, if_neg Bool.false_ne_true]
    simp [keep, h]

theorem sameOutline_readLine (hf : Fronted n s) (hclosed : s.extents.header.closed) (hpast : s.titleLine + 1 ≤ n)
    (hpart : s.part = none) (hline : Text.isVisible line = false ∨ Heading.endsInNumber (Text.trim line))
    (next : Text) : SameOutline s (s.readLine (n + 1) line next) := by
  have hr := reads_readLine (n + 1) line next s
  generalize s.readLine (n + 1) line next = s' at hr ⊢
  cases hr with
  | hidden hl count => exact ⟨rfl, rfl, rfl, rfl, rfl, rfl, rfl⟩
  | first hl hfound =>
    rw [hf.found_of_closed hclosed] at hfound
    cases hfound
  | title hl hfound hc hn | front hl hfound hc hn =>
    rw [hclosed] at hc
    cases hc
  | slug hl hc ht hn => omega
  | body hl hc hn =>
    have hnumber := hline.resolve_left (by simp [hl])
    rw [readBody_of_part_none (s := s.note (n + 1) line (Text.trim line) next) hpart
      (Heading.opened?_eq_none_of_endsInNumber hnumber)]
    exact ⟨rfl, rfl, rfl, rfl, rfl, rfl, rfl⟩

theorem sameOutline_readOn (hf : Fronted n s) (hclosed : s.extents.header.closed) (hpast : s.titleLine + 1 ≤ n)
    (hpart : s.part = none) {rest : List (Text × Text)}
    (hrest : ∀ l ∈ rest, Text.isVisible l.1 = false ∨ Heading.endsInNumber (Text.trim l.1)) :
    SameOutline s (s.readOn n rest) := by
  induction rest generalizing n s with
  | nil => exact .refl s
  | cons l rest ih =>
    obtain ⟨line, next⟩ := l
    obtain ⟨hline, hrest⟩ := List.forall_mem_cons.mp hrest
    have hstep := sameOutline_readLine hf hclosed hpast hpart hline next
    refine hstep.trans (ih (hf.readLine line next) ?_ ?_ ?_ hrest)
    · rwa [hstep.extents]
    · rw [hstep.titleLine]
      omega
    · rwa [hstep.part]

/-- Whatever lines of a table of contents come next, a scan that is past the title and the name with no part open
goes on with no part open, and with the parts, the title and the name as they were. -/
theorem Reached.outline_readOn {ls : List Text} (h : Reached ls s) (hclosed : s.extents.header.closed)
    (hpast : s.titleLine + 1 ≤ ls.length) (hpart : s.part = none) {rest : List (Text × Text)}
    (hrest : ∀ l ∈ rest, Text.isVisible l.1 = false ∨ Heading.endsInNumber (Text.trim l.1)) :
    (s.readOn ls.length rest).part = none ∧ SameOutline s (s.readOn ls.length rest) := by
  have hsame := sameOutline_readOn h.fronted hclosed hpast hpart hrest
  exact ⟨hsame.part.trans hpart, hsame⟩

/-- Entries for sections, subsections and addresses, with a page break among them. -/
theorem Reached.outline_readOn_entries :
    let ls := ["Front", "", "", "Title", "Name"].map String.toList
    let s := initial.readLines (Text.numberFrom 1 ls)
    let rest := ["", "1. Introduction . . . . 1", "9. References 12", "\x0c", "9.1. Normative References 12",
      "Authors' Addresses....13"].map fun l => (l.toList, [])
    s.extents.header.closed ∧ s.titleLine + 1 ≤ ls.length ∧ s.part = none ∧
      (∀ l ∈ rest, Text.isVisible l.1 = false ∨ Heading.endsInNumber (Text.trim l.1)) ∧
      (s.readOn ls.length rest).part = none ∧ SameOutline s (s.readOn ls.length rest) := by
  intro ls s rest
  have hclosed : s.extents.header.closed := by decide
  have hpast : s.titleLine + 1 ≤ ls.length := by decide
  have hpart : s.part = none := by decide
  have hrest : ∀ l ∈ rest, Text.isVisible l.1 = false ∨ Heading.endsInNumber (Text.trim l.1) := by decide
  exact ⟨hclosed, hpast, hpart, hrest, Reached.outline_readOn (.readLines ls) hclosed hpast hpart hrest⟩

end DraftLint.Plain.Scan
