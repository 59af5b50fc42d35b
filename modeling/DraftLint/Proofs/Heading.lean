import DraftLint.Proofs.Pattern.Preference
import DraftLint.Proofs.Plain.Body
import DraftLint.Proofs.Text.Case

/-!
# Headings by their wording

A text that is worded as a heading of some part is a heading of the first level.  The lines that open a part
are therefore those that the table of headings names.
-/

namespace DraftLint

namespace Heading

open Pattern

theorem numbered_eq : numbered = .seq textStart (.seq
    (.seq (.atLeastOnce (.one .decimal)) (.seq (.one (.only '.')) (.atLeastOnce (.one .blank))))
    (.seq (.atLeastOnce (.one .notNewline)) lineEnd)) :=
  rfl

section Numbered

variable {titles : List Pattern} {t : Text}

theorem titled_eq : titled titles = .seq textStart (.seq
    (.seq (.atLeastOnce (.one CharSet.decimal.ignoreCase))
      (.seq (.one (CharSet.only '.').ignoreCase) (.atLeastOnce (.one CharSet.blank.ignoreCase))))
    (.seq (oneOf titles).ignoreCase lineEnd)) :=
  rfl

/-- A number, a full stop, blanks and words on one line. -/
theorem leads_numbered {ds bs w z : Text} (hds : ds ≠ []) (hdecimal : ∀ c ∈ ds, Text.isDecimal c) (hbs : bs ≠ [])
    (hblank : ∀ c ∈ bs, Text.isBlank c) (hw : w ≠ []) (hline : '\n' ∉ w) (hz : z = [] ∨ z = ['\n']) :
    numbered.leads (ds ++ '.' :: (bs ++ (w ++ z))) := by
  have hnotNewline : ∀ c ∈ w, CharSet.notNewline c := by
    intro c hc
    rw [CharSet.notNewline, bne_iff_ne]
    rintro rfl
    exact hline hc
  have hstart : Reads textStart ⟨.start (ds ++ '.' :: (bs ++ (w ++ z))), []⟩ [] ⟨.start _, []⟩ := .anchor rfl
  have hnumber := (Reads.atLeastOnce_amid hds hdecimal [] ('.' :: (bs ++ (w ++ z))) []).seq
    ((Reads.one_amid (s := .only '.') (beq_self_eq_true '.') ds (bs ++ (w ++ z)) []).seq
      (Reads.atLeastOnce_amid hbs hblank (ds ++ ['.']) (w ++ z) []))
  have hwords := Reads.atLeastOnce_amid hw hnotNewline (ds ++ ['.'] ++ bs) z []
  have hend : Reads lineEnd ⟨.amid (ds ++ ['.'] ++ bs ++ w) z, []⟩ [] ⟨.amid (ds ++ ['.'] ++ bs ++ w) z, []⟩ := by
    refine .anchor ?_
    rcases hz with rfl | rfl <;> rfl
  have hdirect : numbered.Direct := by
    simp [numbered_eq, Direct, atLeastOnce, textStart, lineEnd]
  exact isSome_match? (hstart.seq (hnumber.seq (hwords.seq hend))) hdirect

/-- What a heading with one of these titles is made of. -/
theorem exists_of_leads_titled (h : (titled titles).leads t) :
    ∃ ds bs w z : Text, t = ds ++ '.' :: (bs ++ (w ++ z)) ∧ (ds ≠ [] ∧ ∀ c ∈ ds, Text.isDecimal c) ∧
      (bs ≠ [] ∧ ∀ c ∈ bs, Text.isBlank c) ∧ (∃ r r', Reads (oneOf titles).ignoreCase r w r') ∧
      (z = [] ∨ z = ['\n']) := by
  rw [titled_eq] at h
  obtain ⟨m, hm⟩ := Option.isSome_iff_exists.mp h
  obtain ⟨u, hu⟩ := reads_of_match? hm
  have hrest := hu.advance.1
  obtain ⟨_, _, _, rfl, hstart, hu⟩ := hu.of_seq
  obtain ⟨_, _, _, rfl, hnumber, hu⟩ := hu.of_seq
  obtain ⟨w, _, _, rfl, hw, hend⟩ := hu.of_seq
  obtain ⟨ds, _, _, rfl, hdigits, hu⟩ := hnumber.of_seq
  obtain ⟨_, bs, _, rfl, hstop, hblanks⟩ := hu.of_seq
  obtain ⟨c, rfl, hc⟩ := hstop.of_one
  obtain rfl := Text.eq_of_only_ignoreCase (by decide) hc
  obtain ⟨rfl, hsame, hz⟩ := hend.of_lineEnd
  obtain ⟨hds, hdecimal⟩ := hdigits.of_atLeastOnce_one
  obtain ⟨hbs, hblank⟩ := hblanks.of_atLeastOnce_one
  cases hstart
  rw [← hsame] at hz
  refine ⟨ds, bs, w, m.stop.rest, ?_, ⟨hds, fun c hc => Text.isDecimal_of_ignoreCase (hdecimal c hc)⟩,
    ⟨hbs, fun c hc => Text.isBlank_of_ignoreCase (hblank c hc)⟩, ⟨_, _, hw⟩, hz⟩
  simpa [Cursor.start] using hrest

theorem leads_numbered_of_titled (h : (titled titles).leads t) (hconsumes : (oneOf titles).ignoreCase.consumes)
    (havoids : (oneOf titles).ignoreCase.avoids '\n') : numbered.leads t := by
  obtain ⟨ds, bs, w, z, rfl, ⟨hds, hdecimal⟩, ⟨hbs, hblank⟩, ⟨_, _, hw⟩, hz⟩ := exists_of_leads_titled h
  exact leads_numbered hds hdecimal hbs hblank (hw.ne_nil hconsumes) (hw.not_mem havoids) hz

end Numbered

section Parts

variable {p : Part} {t : Text}

/-- The heading of a part ends the part before it.  The title of references may be broken over lines. -/
theorem endsPart_of_part? (h : part? t = some p) (hp : p ≠ .references) : endsPart t = true := by
  rw [endsPart, Bool.or_eq_true]
  unfold part? at h
  split_ifs at h with hintroduction hsecurity hauthors hreferences hiana
  · exact .inl (leads_numbered_of_titled (leads_of_occursIn hintroduction) (by decide) (by decide))
  · exact .inl (leads_numbered_of_titled (leads_of_occursIn hsecurity) (by decide) (by decide))
  · exact .inr (leads_of_occursIn hauthors)
  · exact absurd (Option.some.inj h).symm hp
  · exact .inl (leads_numbered_of_titled (leads_of_occursIn hiana) (by decide) (by decide))

/-- The text is a heading of the part: the word alone for the abstract, and else what the table names. -/
def opens (p : Part) (t : Text) : Bool :=
  if p = .abstract then t == "Abstract".toList else part? t == some p

theorem part?_abstract : part? "Abstract".toList = none := by
  decide

theorem part?_ne_abstract (t : Text) : part? t ≠ some .abstract := by
  unfold part?
  split_ifs <;> simp

/-- A line opens a part exactly if it is worded as a heading of it. -/
theorem opened?_eq_some_iff (hp : p ≠ .references) : opened? t = some p ↔ opens p t := by
  unfold opened? opens
  by_cases hpa : p = .abstract
  · subst hpa
    rw [if_pos rfl]
    split_ifs with ha he
    · exact iff_of_true rfl ha
    · exact iff_of_false (part?_ne_abstract t) ha
    · exact iff_of_false (by simp) ha
  · rw [if_neg hpa, beq_iff_eq (a := part? t)]
    split_ifs with ha he
    · rw [beq_iff_eq.mp ha, part?_abstract]
      exact iff_of_false (fun h => hpa (Option.some.inj h).symm) (by simp)
    · rfl
    · exact iff_of_false (by simp) fun h => he (endsPart_of_part? h hp)

end Parts

end Heading

end DraftLint
