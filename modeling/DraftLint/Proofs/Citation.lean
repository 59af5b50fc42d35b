import DraftLint.Plain.Lexical
import DraftLint.Proofs.Pattern.Matching
import DraftLint.Proofs.Text.Case
import DraftLint.Proofs.Text.Words
import Mathlib.Tactic.SplitIfs

/-!
# Numbers in citations

What a citation captures as the number of an RFC is a numeral, although its pattern ignores case: no
character has a decimal digit as its other case.
-/

namespace DraftLint

namespace Citation

open Pattern

theorem encloses_rfc :
    rfc.Encloses fun _ p => p = atLeastOnce (one CharSet.decimal.ignoreCase) := by
  simp [rfc, oneOf, all, lit, literal, ignoreCase, Encloses, maybe, wordEdge, Pattern.blank, decimals,
    decimal, atLeastOnce]

theorem allDigits_of_mem_rfcsIn {t v : Text} (h : v ∈ Plain.Items.rfcsIn t) : Text.allDigits v := by
  obtain ⟨m, hm, hg⟩ := List.mem_filterMap.mp h
  have hread : ∃ p s s', p = atLeastOnce (one CharSet.decimal.ignoreCase) ∧ Reads p s v s' := by
    rw [Option.orElse_eq_orElse, Option.orElse_eq_or, Option.or_eq_some_iff] at hg
    rcases hg with hg | ⟨-, hg⟩
    · exact group?_of_mem_scan encloses_rfc hm hg
    · exact group?_of_mem_scan encloses_rfc hm hg
  obtain ⟨p, s, s', rfl, hv⟩ := hread
  obtain ⟨hne, hall⟩ := hv.of_atLeastOnce_one
  simp only [Text.allDigits, Bool.and_eq_true, Bool.not_eq_true', List.isEmpty_eq_false_iff,
    List.all_eq_true]
  refine ⟨hne, fun c hc => ?_⟩
  rw [Text.isDigitLike, Text.isDecimal_of_ignoreCase (hall c hc), Bool.true_or]

/-- The name of a draft has a letter d. -/
theorem mem_lower_draftName {label name : Text} (h : draftName? label = some name) : 'd' ∈ Text.lower name := by
  simp only [draftName?] at h
  split_ifs at h with hdraft
  obtain rfl := Option.some.inj h
  exact Text.subset_of_contains hdraft (by decide)

end Citation
end DraftLint
