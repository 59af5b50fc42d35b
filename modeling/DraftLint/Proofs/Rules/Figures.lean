import DraftLint.Proofs.Markup.Figures
import DraftLint.Proofs.Unconnected

/-!
# Figures and the rules on wording

The rules on requirement levels, host names and addresses take what they look at from the running text, and
besides from the attributes of elements.  Text inside code and artwork is neither, so that it does not change
what they report.
-/

namespace DraftLint.Rules

open Markup

section Wording

variable {e e' : Element}

theorem citesRfc2119_eq (h : e.Alike e') (text : Text) : citesRfc2119 e text = citesRfc2119 e' text := by
  simp only [citesRfc2119, Element.allNamed, List.any_filter]
  rw [h.any_all fun _ => rfl, h.any_all fun _ => rfl, h.any_all fun _ => rfl]

theorem ofMarkup_eq (h : e.Alike e') : Requirements.ofMarkup e = Requirements.ofMarkup e' := by
  simp only [Requirements.ofMarkup, h.runningText_eq, citesRfc2119_eq h]

end Wording

/-- The rules on words, names and addresses. -/
def wording : List Rule :=
  [.requirements, .hostNames, .ipv4, .ipv6]

section Verdict

variable {d d' : Markup.Document} {r : Rule}

theorem examine_wording_eq (h : d.root.Alike d'.root) (hr : r ∈ wording) (s : Standard) :
    r.examine s (.markup d) = r.examine s (.markup d') := by
  have haddresses : addresses (.markup d) = addresses (.markup d') := by
    simp only [addresses, h.runningText_eq]
  simp only [wording, List.mem_cons, List.not_mem_nil, or_false] at hr
  rcases hr with rfl | rfl | rfl | rfl
  · simp only [Rule.examine, requirements, ofMarkup_eq h]
  · simp only [Rule.examine, hostNames, haddresses]
  · simp only [Rule.examine, ipv4Addresses, haddresses]
  · simp only [Rule.examine, ipv6Addresses, haddresses]

/-- These rules say what they have to say without asking other sites. -/
theorem answer_verdict_wording (hr : r ∈ wording) (s : Standard) (online : Bool) (x : Document) (w : World) :
    (r.verdict s online x).answer w = r.examine s x := by
  have hinquire : (r.inquire x).answer w = .clean := by
    simp only [wording, List.mem_cons, List.not_mem_nil, or_false] at hr
    rcases hr with rfl | rfl | rfl | rfl <;> rfl
  rw [Rule.answer_verdict, hinquire, Verdict.andThen_clean, ite_self]

theorem exists_nits_wording (hr : r ∈ wording) (s : Standard) (x : Document) (m : Mode) :
    ∃ ns, (r.examine s x).nits m = .ok ns := by
  have hdate : r ≠ .date := by
    rintro rfl
    revert hr
    decide
  rw [Verdict.nits, Rule.failure_examine hdate]
  exact ⟨_, rfl⟩

/-- Documents that differ in text inside figures only have the same running text, and the rules on words, names
and addresses report the same nits for both in every mode. -/
theorem nits_wording_eq (h : d.root.Alike d'.root) :
    d.root.runningText = d'.root.runningText ∧
    ∀ r ∈ wording, ∀ (s : Standard) (online : Bool) (w : World) (m : Mode),
      ∃ ns, ((r.verdict s online (.markup d)).answer w).nits m = .ok ns ∧
        ((r.verdict s online (.markup d')).answer w).nits m = .ok ns := by
  refine ⟨h.runningText_eq, fun r hr s online w m => ?_⟩
  rw [answer_verdict_wording hr, answer_verdict_wording hr, ← examine_wording_eq h hr]
  obtain ⟨ns, hns⟩ := exists_nits_wording hr s (.markup d) m
  exact ⟨ns, hns, hns⟩

/-- A paragraph around a piece of code, and another one below it. -/
def aroundCode (code : Text) : Markup.Document where
  fileName := none
  root := ⟨⟨"rfc".toList, 1, []⟩, [
    .element ⟨"t".toList, 1, []⟩ [.text "It MUST ask ".toList,
      .element ⟨"sourcecode".toList, 1, []⟩ [.text code], .text "host.com.".toList],
    .element ⟨"t".toList, code.count '\n' + 1, []⟩ []]⟩
  entities := []
  kind := .unknown

theorem nits_wording_eq_aroundCode :
    (aroundCode "MAY NOT\n10.0.0.1".toList).root.Alike (aroundCode "code.org".toList).root ∧
    (aroundCode "MAY NOT\n10.0.0.1".toList).root.runningText = (aroundCode "code.org".toList).root.runningText ∧
    (aroundCode "code.org".toList).root.runningText = "It MUST ask host.com.".toList ∧
    ∃ ns, ((Rule.hostNames.verdict ⟨⟨2024, 3, 4, by decide⟩, none⟩ false
        (.markup (aroundCode "MAY NOT\n10.0.0.1".toList))).answer fun _ => none).nits .normal = .ok ns ∧
      ((Rule.hostNames.verdict ⟨⟨2024, 3, 4, by decide⟩, none⟩ false
        (.markup (aroundCode "code.org".toList))).answer fun _ => none).nits .normal = .ok ns := by
  have hcode : AlikeNodes true [.text "MAY NOT\n10.0.0.1".toList] [.text "code.org".toList] :=
    .textLeft _ (.textRight _ (.nil _))
  have halike : (aroundCode "MAY NOT\n10.0.0.1".toList).root.Alike (aroundCode "code.org".toList).root :=
    ⟨rfl, rfl, .element _ _ _ _ (.text _ (.element _ _ _ _ hcode (.text _ (.nil _))))
      (.element _ _ _ _ (.nil _) (.nil _))⟩
  obtain ⟨htext, hnits⟩ := nits_wording_eq halike
  exact ⟨halike, htext, by decide +kernel, hnits .hostNames (by decide) _ false (fun _ => none) .normal⟩

end Verdict

end DraftLint.Rules
