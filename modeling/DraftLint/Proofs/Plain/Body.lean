import DraftLint.Plain.Scan
import Mathlib.Tactic.SplitIfs

/-!
# Reading a line of the body

A line of the body either divides parts, by being a heading or the word that opens the abstract, or it is
text of the part that is open after it.  It changes nothing but the parts.
-/

namespace DraftLint

namespace Heading

/-- The line is a heading that ends the part before it, whether it opens another one or not. -/
def divides (t : Text) : Bool :=
  t == "Abstract".toList || endsPart t

/-- The part that a line of the body opens by its wording. -/
def opened? (t : Text) : Option Part :=
  if t == "Abstract".toList then some .abstract
  else if endsPart t then part? t
  else none

/-- The kind of references that holds after a line of the body. -/
def kindAfter (t : Text) (before : Option ReferenceKind) : Option ReferenceKind :=
  if t == "Abstract".toList then before
  else if endsPart t then if part? t = some .references then referenceKind? t else none
  else if withinPart t then referenceKind? t
  else before

theorem part?_ne_header (t : Text) : part? t ≠ some .header := by
  unfold part?
  split_ifs <;> simp

theorem opened?_ne_header (t : Text) : opened? t ≠ some .header := by
  unfold opened?
  split_ifs
  · simp
  · exact part?_ne_header t
  · simp

theorem divides_of_opened? {t : Text} {p : Part} (h : opened? t = some p) : divides t = true := by
  unfold opened? at h
  split_ifs at h with ha he
  · rw [divides, ha, Bool.true_or]
  · rw [divides, he, Bool.or_true]

end Heading

namespace Plain.Scan

/-- The line ends an abstract that is open, by its indentation or its first words. -/
def leavesAbstract (line stripped : Text) (s : Scan) : Bool :=
  s.part == some .abstract && !s.extents.abstract.closed &&
    (Text.startsWith "Status of".toList stripped || !Text.startsWith [' ', ' '] line)

/-- The scan in front of a line of text, once an abstract that the line leaves is closed. -/
def leave (num : Nat) (line stripped : Text) (s : Scan) : Scan :=
  if s.leavesAbstract line stripped then s.closePart (num - 1) else s

section Body

variable {num : Nat} {line stripped : Text} {s : Scan}

@[simp] theorem part_closePart (num : Nat) (s : Scan) : (s.closePart num).part = none := by
  unfold closePart
  split
  · assumption
  · rfl

@[simp] theorem items_closePart (num : Nat) (s : Scan) : (s.closePart num).items = s.items := by
  unfold closePart
  split <;> rfl

theorem closePart_of_part_none (h : s.part = none) : s.closePart num = s := by
  simp [closePart, h]

/-- An abstract that a heading leaves is closed by the heading anyway. -/
theorem closePart_leave (num : Nat) (line stripped : Text) (s : Scan) :
    (s.leave num line stripped).closePart (num - 1) = s.closePart (num - 1) := by
  unfold leave
  split_ifs
  · exact closePart_of_part_none (part_closePart _ _)
  · rfl

@[simp] theorem subsection_closePart (num : Nat) (s : Scan) :
    (s.closePart num).subsection = s.subsection := by
  unfold closePart
  split <;> rfl

@[simp] theorem subsection_leave (num : Nat) (line stripped : Text) (s : Scan) :
    (s.leave num line stripped).subsection = s.subsection := by
  unfold leave
  split_ifs
  · exact subsection_closePart _ _
  · rfl

@[simp] theorem subsection_keep (t : Text) (s : Scan) : (s.keep t).subsection = s.subsection := by
  unfold keep
  split
  · rfl
  · split_ifs <;> rfl

theorem keep_with_subsection (t : Text) (k : Option ReferenceKind) :
    { s with subsection := k }.keep t = { s.keep t with subsection := k } := by
  obtain ⟨page, items, count, title, titleLine, slug, slugLine, extents, content, part, kind, inCode⟩ := s
  cases part with
  | none => rfl
  | some p =>
    simp only [keep]
    split_ifs <;> rfl

/-- A dividing line closes the open part, and opens the one that it names. -/
theorem readBody_of_divides (h : Heading.divides stripped) :
    s.readBody num line stripped =
      { match Heading.opened? stripped with
        | none => s.closePart (num - 1)
        | some p => (s.closePart (num - 1)).openPart p num with
        subsection := Heading.kindAfter stripped s.subsection } := by
  by_cases ha : (stripped == "Abstract".toList) = true
  · simp only [readBody, Heading.opened?, Heading.kindAfter, ha, if_true]
    rw [← subsection_closePart (num - 1) s]
    rfl
  · have he : Heading.endsPart stripped = true := by
      rw [Heading.divides, Bool.or_eq_true] at h
      exact h.resolve_left ha
    have hc := closePart_leave num line stripped s
    unfold leave leavesAbstract at hc
    simp only [readBody, Heading.opened?, Heading.kindAfter, ha, he, if_true, Bool.false_eq_true,
      if_false, hc]
    cases hp : Heading.part? stripped with
    | none => rfl
    | some p =>
      by_cases hr : p = .references
      · subst hr; rfl
      · simp only [hr, Option.some.injEq, if_false]
        rfl

/-- Any other line belongs to the part that is open after it. -/
theorem readBody_of_not_divides (h : Heading.divides stripped = false) :
    s.readBody num line stripped =
      { (s.leave num line stripped).keep stripped with
        subsection := Heading.kindAfter stripped s.subsection } := by
  simp only [Heading.divides, Bool.or_eq_false_iff] at h
  obtain ⟨ha, he⟩ := h
  have hs := subsection_leave num line stripped s
  simp only [readBody, Heading.kindAfter, ha, he, Bool.false_eq_true, if_false]
  change (if Heading.withinPart stripped = true then
      { s.leave num line stripped with subsection := Heading.referenceKind? stripped }.keep stripped
    else (s.leave num line stripped).keep stripped) = _
  split_ifs
  · exact keep_with_subsection _ _
  · rw [← hs, ← subsection_keep stripped (s.leave num line stripped)]

theorem part_leave :
    (s.leave num line stripped).part = if s.leavesAbstract line stripped then none else s.part := by
  unfold leave
  split_ifs
  · exact part_closePart _ _
  · rfl

@[simp] theorem part_keep (t : Text) : (s.keep t).part = s.part := by
  unfold keep
  split
  · rfl
  · split_ifs <;> rfl

theorem part_readBody :
    (s.readBody num line stripped).part =
      if Heading.divides stripped then Heading.opened? stripped
      else if s.leavesAbstract line stripped then none
      else s.part := by
  by_cases h : Heading.divides stripped = true
  · rw [readBody_of_divides h, if_pos h]
    cases Heading.opened? stripped with
    | none => exact part_closePart _ _
    | some p => rfl
  · rw [readBody_of_not_divides (by simpa using h), if_neg h]
    exact (part_keep stripped).trans part_leave

end Body

/-- The scan with all parts forgotten but the front page. -/
def withoutParts (s : Scan) : Scan :=
  { s with
    extents := (Parts.const Extent.none).set s.extents.header .header
    content := .const none
    part := none
    subsection := none }

section Front

variable {num : Nat} {line stripped : Text} {s : Scan}

theorem withoutParts_closePart (h : s.part ≠ some .header) :
    (s.closePart num).withoutParts = s.withoutParts := by
  unfold closePart
  split
  · rfl
  · rename_i p hp
    have hne : Part.header ≠ p := by
      rintro rfl
      exact h hp
    simp only [withoutParts]
    split_ifs
    · rfl
    · rw [show ∀ ps : Parts Extent, ps.header = ps.get .header from fun _ => rfl,
        Parts.get_set_of_ne _ _ hne]
      rfl

theorem withoutParts_openPart {p : Part} (h : p ≠ .header) :
    (s.openPart p num).withoutParts = s.withoutParts := by
  cases p <;> first | rfl | exact absurd rfl h

@[simp] theorem withoutParts_keep (t : Text) : (s.keep t).withoutParts = s.withoutParts := by
  unfold keep
  split
  · rfl
  · split_ifs <;> rfl

theorem withoutParts_leave (h : s.part ≠ some .header) :
    (s.leave num line stripped).withoutParts = s.withoutParts := by
  unfold leave
  split_ifs
  · exact withoutParts_closePart h
  · rfl

/-- A line of the body changes nothing but the parts. -/
theorem withoutParts_readBody (num : Nat) (line stripped : Text) (h : s.part ≠ some .header) :
    (s.readBody num line stripped).withoutParts = s.withoutParts := by
  by_cases hd : Heading.divides stripped = true
  · rw [readBody_of_divides hd]
    cases ho : Heading.opened? stripped with
    | none => exact withoutParts_closePart h
    | some p =>
      have hp : p ≠ .header := by
        rintro rfl
        exact Heading.opened?_ne_header _ ho
      exact (withoutParts_openPart hp).trans (withoutParts_closePart h)
  · rw [readBody_of_not_divides (by simpa using hd)]
    exact (withoutParts_keep stripped).trans (withoutParts_leave h)

theorem title_readBody (h : s.part ≠ some .header) :
    (s.readBody num line stripped).title = s.title := by
  have hw := congrArg Scan.title (withoutParts_readBody num line stripped h)
  exact hw

theorem titleLine_readBody (h : s.part ≠ some .header) :
    (s.readBody num line stripped).titleLine = s.titleLine := by
  have hw := congrArg Scan.titleLine (withoutParts_readBody num line stripped h)
  exact hw

theorem header_readBody (h : s.part ≠ some .header) :
    (s.readBody num line stripped).extents.header = s.extents.header := by
  have hw := congrArg (fun r => r.extents.header) (withoutParts_readBody num line stripped h)
  exact hw

end Front

end Plain.Scan
end DraftLint
