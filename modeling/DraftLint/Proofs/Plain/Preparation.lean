import DraftLint.Plain.Document
import DraftLint.Proofs.Text.LineEnds

/-!
# Prepared texts

What the lines of a document are taken from: a text with line feeds for all line ends and spaces for tabs.  A
prepared text is prepared already, and the line ends of a text do not show in it.
-/

namespace DraftLint.Plain.Document

variable {s t : Text}

theorem not_mem_return_prepare (t : Text) : '\r' ∉ prepare t := by
  intro h
  rcases Text.mem_of_mem_expandTabsFrom h with hspace | hreturn
  · exact absurd hspace (by decide)
  · exact Text.not_mem_unifyLineEnds t hreturn

theorem not_mem_tab_prepare (t : Text) : '\t' ∉ prepare t :=
  Text.not_mem_expandTabsFrom 0 _

theorem not_mem_prepare {c : Char} (hline : c ≠ '\n') (hspace : c ≠ ' ') (h : c ∉ t) : c ∉ prepare t := by
  intro hc
  rcases Text.mem_of_mem_expandTabsFrom hc with hc | hc
  · exact hspace hc
  · exact (Text.mem_of_mem_unifyLineEnds hc).elim hline h

theorem prepare_prepare (t : Text) : prepare (prepare t) = prepare t := by
  have hends : Text.unifyLineEnds (prepare t) = prepare t :=
    Text.unifyLineEnds_eq_self (not_mem_return_prepare t)
  calc prepare (prepare t)
      = Text.expandTabs (prepare t) := by rw [prepare, hends]
    _ = prepare t := Text.expandTabsFrom_eq_self (not_mem_tab_prepare t) 0

/-- Texts with the same line feeds once their line ends are unified are the same document. -/
theorem ofText_congr (fileName : Option Text) (h : Text.unifyLineEnds s = Text.unifyLineEnds t) :
    ofText fileName s = ofText fileName t := by
  have hprepare : prepare s = prepare t := congrArg Text.expandTabs h
  rw [ofText, ofText, hprepare]

/-- The body of a document has no carriage returns and no tabs, and read again it is the same document.
Whether lines end in line feeds, in carriage returns or in both does not matter. -/
theorem ofText_body (fileName : Option Text) (t : Text) :
    ('\r' ∉ (ofText fileName t).body ∧ '\t' ∉ (ofText fileName t).body ∧
      ofText fileName (ofText fileName t).body = ofText fileName t) ∧
    ('\r' ∉ t →
      ofText fileName (Text.replaceAll ['\n'] ['\r', '\n'] t) = ofText fileName t ∧
      ofText fileName (Text.replaceAll ['\n'] ['\r'] t) = ofText fileName t) := by
  refine ⟨⟨not_mem_return_prepare t, not_mem_tab_prepare t, ?_⟩, fun h => ⟨?_, ?_⟩⟩
  · have hbody : (ofText fileName t).body = prepare t := rfl
    rw [hbody, ofText, ofText, prepare_prepare]
  · apply ofText_congr
    rw [Text.unifyLineEnds_replaceAll_both h, Text.unifyLineEnds_eq_self h]
  · apply ofText_congr
    rw [Text.unifyLineEnds_replaceAll_return h, Text.unifyLineEnds_eq_self h]

/-- A tab and two line feeds, one of them last. -/
theorem ofText_body_tab :
    '\r' ∉ "a\tb\nc\n".toList ∧
      (ofText none "a\tb\r\nc\r\n".toList).body = "a       b\nc\n".toList ∧
      ofText none "a\tb\r\nc\r\n".toList = ofText none "a\tb\nc\n".toList ∧
      ofText none "a\tb\rc\r".toList = ofText none "a\tb\nc\n".toList := by
  have hreturn : '\r' ∉ "a\tb\nc\n".toList := by decide
  have hends := (ofText_body none "a\tb\nc\n".toList).2 hreturn
  exact ⟨hreturn, by decide, hends.1, hends.2⟩

end DraftLint.Plain.Document
