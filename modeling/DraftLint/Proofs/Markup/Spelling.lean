import DraftLint.Proofs.Markup.Naming
import DraftLint.Proofs.Pattern.Preference
import DraftLint.Proofs.Spelling

/-!
# Entries by their labels

An entry goes by its anchor, by series information, or by the name of an included file.  If that spells the name
of a draft, the entry names the draft.
-/

namespace DraftLint.Markup

open Pattern Citation

section Anchor

variable {s : Text}

/-- A label that does not begin like that of an RFC is none. -/
theorem rfcAnchor_of_label (hs : ∀ c ∈ s, labelChar c) (hrfc : namesRfc s = false) :
    (rfcAnchor.match? s).bind (·.group? 1) = none := by
  have hnone : rfcAnchor.match? s = none := by
    refine matchAt_eq_none fun t r hread => ?_
    have hrest := hread.advance.1
    obtain ⟨_, _, _, rfl, hstart, hread⟩ := hread.of_seq
    obtain ⟨letters, _, _, rfl, hletters, hread⟩ := Reads.of_seq (p := (literal "RFC".toList).ignoreCase) hread
    obtain ⟨gap, _, _, rfl, hgap, hread⟩ := hread.of_seq
    obtain ⟨digits, tail, _, rfl, hdigits, hend⟩ := hread.of_seq
    obtain ⟨_, hdigits, -⟩ := hdigits.of_group
    obtain ⟨hne, hdecimal⟩ := Reads.of_atLeastOnce_one (s := CharSet.decimal.ignoreCase) hdigits
    cases hstart
    obtain ⟨d, digits, rfl⟩ := List.exists_cons_of_ne_nil hne
    have hs' : s = letters ++ (gap ++ (d :: digits ++ (tail ++ r.cursor.rest))) := by
      simpa [Cursor.start] using hrest
    have hgap : gap = [] := by
      rcases hgap.of_maybe with hnil | hblank
      · exact hnil
      · obtain ⟨c, rfl, hc⟩ := Reads.of_one (s := (CharSet.only ' ').ignoreCase) hblank
        have hspace : Text.isBlank c := by
          refine Text.isBlank_of_ignoreCase ?_
          obtain ⟨x, hx, hxc⟩ := List.any_eq_true.mp hc
          obtain rfl := beq_iff_eq.mp hxc
          exact List.any_eq_true.mpr ⟨_, hx, by decide⟩
        rw [(apart_of_labelChar (hs c (by simp [hs']))).1] at hspace
        cases hspace
    obtain ⟨hlength, hsees⟩ := hletters.sees_row (row_literal_ignoreCase _)
      (d :: (digits ++ (tail ++ r.cursor.rest)))
    have hsplit : namesRfc s = (Cursor.sees ("RFC".toList.map fun c => (CharSet.only c).ignoreCase) s &&
        Cursor.sees [CharSet.decimal.ignoreCase] (s.drop 3)) :=
      sees_append ("RFC".toList.map fun c => (CharSet.only c).ignoreCase) [CharSet.decimal.ignoreCase] s
    have hthree : letters.length = 3 := hlength
    rw [hsplit, hs', hgap, List.nil_append, List.cons_append, hsees, ← hthree, List.drop_left,
      Cursor.sees, hdecimal d (List.mem_cons_self ..)] at hrfc
    cases hrfc
  rw [hnone, Option.bind_none]

end Anchor

section Files

variable {fuel : Nat} {p rest body : Text}

/-- What the name of such a file begins with. -/
def fileLead : Text := "reference.".toList

theorem ne_of_not_infix (hp : ¬fileLead <:+: p) (u w : Text) : p ≠ u ++ (fileLead ++ w) := by
  rintro rfl
  exact hp ⟨u, w, by rw [List.append_assoc]⟩

theorem rfcFile_eq : rfcFile = .seq (literal (fileLead ++ "RFC.".toList))
    (.seq (.group 1 (times 4 decimal)) (literal ".xml".toList)) :=
  rfl

/-- A file without a capital R in its name is not that of an RFC. -/
theorem search?_rfcFile (hp : ¬fileLead <:+: p) (hrest : 'R' ∉ rest) : rfcFile.search? (p ++ rest) = none := by
  refine search?_eq_none fun u v huv => ?_
  rw [Option.eq_none_iff_forall_ne_some]
  intro m hm
  obtain ⟨t, hread⟩ := reads_of_matchAt hm
  have hv : v = t ++ m.stop.rest := hread.advance.1
  rw [rfcFile_eq] at hread
  obtain ⟨lead, t, _, rfl, hlead, -⟩ := hread.of_seq
  obtain rfl := hlead.of_literal
  have hsplit : p ++ rest = (u ++ fileLead) ++ 'R' :: ("FC.".toList ++ (t ++ m.stop.rest)) := by
    rw [huv, hv]
    simp
  rcases List.append_eq_append_iff.mp hsplit with ⟨a, -, hend⟩ | ⟨a, hfront, -⟩
  · exact hrest (by rw [hend]; simp)
  · exact ne_of_not_infix hp u a (by rw [hfront, List.append_assoc])

end Files

namespace Element

variable {e : Element} {s x label : Text}

/-- Series information that is empty or about something else than an RFC or a draft. -/
def Silent (info : Element) : Prop :=
  Text.trim (info.attributeText "value") = [] ∨
    (info.attribute? "name").map Text.str ∉ [some "RFC", some "Internet-Draft"]

theorem seriesNaming?_append {before : List Element} (h : ∀ info ∈ before, info.Silent) (infos : List Element) :
    seriesNaming? (before ++ infos) = seriesNaming? infos := by
  induction before with
  | nil => rfl
  | cons info before ih =>
    have hrest := ih fun i hi => h i (List.mem_cons_of_mem _ hi)
    simp only [List.cons_append, seriesNaming?]
    rcases h info (List.mem_cons_self ..) with hempty | hname
    · simp only [hempty, List.isEmpty_nil, if_true]
      exact hrest
    · simp only [List.mem_cons, List.not_mem_nil, or_false, not_or] at hname
      by_cases hempty : (Text.trim (info.attributeText "value")).isEmpty = true
      · rw [if_pos hempty]
        exact hrest
      · rw [if_neg hempty]
        exact (other_series hname.1 hname.2).trans hrest

/-- A reference without more series information names what its anchor does. -/
theorem naming_of_anchor (hname : e.name ≠ includeName) (hanchor : Text.trim (e.attributeText "anchor") = s)
    (hinfos : ∀ info ∈ e.childrenNamed "seriesInfo", info.Silent) (hs : ∀ c ∈ s, labelChar c)
    (hrfc : namesRfc s = false) : e.naming = .ofLabel s := by
  have hinclude : (e.name == includeName) = false := beq_eq_false_iff_ne.mpr hname
  have hseries := seriesNaming?_append hinfos []
  rw [List.append_nil] at hseries
  simp only [naming, hinclude, hanchor, rfcAnchor_of_label hs hrfc, hseries, Bool.false_eq_true, if_false]
  rfl

end Element

end DraftLint.Markup
