import DraftLint.Proofs.Plain.Preparation
import DraftLint.Proofs.Text.Squeeze
import DraftLint.RequirementLevel

/-!
# Texts that are wrapped anew

What a text as a whole shows is told by its words.  Where its lines end, how they are indented and which blanks stand
between words makes no difference to it.
-/

namespace DraftLint.Plain.Document

open Text

variable {s t : Text}

theorem sameWords_prepare (t : Text) : SameWords (prepare t) t :=
  (sameWords_expandTabsFrom 0 _).trans (sameWords_unifyLineEnds t)

/-- Preparing a text before it is squeezed makes no difference. -/
theorem squeeze_body (fileName : Option Text) (t : Text) : squeeze (ofText fileName t).body = squeeze t :=
  squeeze_eq_iff.mpr (sameWords_prepare t).words_eq

/-- The squeezed body keeps the words of the text, and nothing else. -/
theorem squeeze_body_eq_iff (fileName fileName' : Option Text) :
    squeeze (ofText fileName s).body = squeeze (ofText fileName' t).body ↔ words s = words t := by
  rw [squeeze_body, squeeze_body, squeeze_eq_iff]

/-- Texts with the same words show the same as a whole, and use the same keywords. -/
theorem overview_of_words_eq (h : words s = words t) (fileName fileName' : Option Text) :
    (ofText fileName s).overview = (ofText fileName' t).overview ∧
    RequirementLevel.used (squeeze (ofText fileName s).body) =
      RequirementLevel.used (squeeze (ofText fileName' t).body) := by
  have hsqueeze := (squeeze_body_eq_iff fileName fileName').mpr h
  have hoverview : ∀ (f : Option Text) (u : Text), (ofText f u).overview = .ofText (ofText f u).body := fun _ _ => rfl
  refine ⟨?_, congrArg RequirementLevel.used hsqueeze⟩
  rw [hoverview, hoverview, Overview.ofText, Overview.ofText, hsqueeze]

/-- A page break, a tab, an em space and two kinds of line ends, against single spaces. -/
theorem overview_of_words_eq_pages :
    words "Updates: RFC 1,\r\n\x0c\n\tRFC 2.\rIt MUST\u2003 NOT fail.".toList =
      words "Updates: RFC 1, RFC 2. It MUST NOT fail.".toList ∧
    (ofText none "Updates: RFC 1,\r\n\x0c\n\tRFC 2.\rIt MUST\u2003 NOT fail.".toList).overview =
      (ofText none "Updates: RFC 1, RFC 2. It MUST NOT fail.".toList).overview ∧
    (ofText none "Updates: RFC 1, RFC 2. It MUST NOT fail.".toList).overview.updates = ["1".toList, "2".toList] ∧
    RequirementLevel.used (squeeze (ofText none "Updates: RFC 1,\r\n\x0c\n\tRFC 2.\rIt MUST\u2003 NOT fail.".toList).body) =
      RequirementLevel.used (squeeze (ofText none "Updates: RFC 1, RFC 2. It MUST NOT fail.".toList).body) ∧
    RequirementLevel.used (squeeze (ofText none "Updates: RFC 1, RFC 2. It MUST NOT fail.".toList).body) =
      ["MUST NOT".toList] := by
  have hwords : words "Updates: RFC 1,\r\n\x0c\n\tRFC 2.\rIt MUST\u2003 NOT fail.".toList =
      words "Updates: RFC 1, RFC 2. It MUST NOT fail.".toList := by decide +kernel
  obtain ⟨hoverview, hused⟩ := overview_of_words_eq hwords none none
  exact ⟨hwords, hoverview, by decide +kernel, hused, by decide +kernel⟩

end DraftLint.Plain.Document
