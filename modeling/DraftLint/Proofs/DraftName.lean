import DraftLint.Citation
import DraftLint.Proofs.Pattern.Replacing
import DraftLint.Proofs.Text.Case
import DraftLint.Proofs.Text.Numeral
import DraftLint.Proofs.Text.Pieces
import DraftLint.Proofs.Text.Words

/-!
# Names of drafts in labels

A label gives a name once its brackets are off, its short form is written out, and the version at its end is
left out.  That is the name of a draft if the word occurs in it anywhere.
-/

namespace DraftLint.Citation

open Pattern

section Characters

/-- What a label in brackets consists of. -/
def labelChar : CharSet :=
  (CharSet.or .letter (.or .digit (.of "-."))).ignoreCase

variable {c : Char}

theorem labelChar_cases (h : labelChar c) :
    CharSet.letter c ∨ c.toNat ∈ [0x17F, 0x212A, 0x130, 0x131] ∨ CharSet.digit c ∨ c = '-' ∨ c = '.' := by
  obtain ⟨d, hd, hchar⟩ := List.any_eq_true.mp h
  rcases Bool.or_eq_true_iff.mp hchar with hletter | hother
  · rcases Text.letter_or_special_of_ignoreCase (List.any_eq_true.mpr ⟨d, hd, hletter⟩) with hc | hc
    · exact .inl hc
    · exact .inr (.inl hc)
  · have hmem : CharSet.or .digit (.of "-.") c := by
      refine Text.mem_of_ignoreCase (fun x hx => ?_) (List.any_eq_true.mpr ⟨d, hd, hother⟩)
      have hbounds := Text.bounds_of_letter hx
      have hrange : '0'.toNat = 0x30 ∧ '9'.toNat = 0x39 ∧ '-'.toNat = 0x2D ∧ '.'.toNat = 0x2E := by decide
      rw [Bool.eq_false_iff]
      intro hor
      simp only [CharSet.or, CharSet.digit, CharSet.range, CharSet.of, Bool.or_eq_true, Bool.and_eq_true,
        decide_eq_true_eq, List.contains_iff_mem, String.reduceToList, List.mem_cons, List.not_mem_nil,
        or_false] at hor
      rcases hor with hor | rfl | rfl <;> omega
    right; right
    simpa [CharSet.or, CharSet.of] using hmem

/-- No blank and no bracket is part of a label. -/
theorem apart_of_labelChar (h : labelChar c) : Text.isBlank c = false ∧ c ≠ '[' ∧ c ≠ ']' ∧ c ≠ '\n' := by
  have hbounds : (0x2D ≤ c.toNat ∧ c.toNat ≤ 0x5A) ∨ (0x61 ≤ c.toNat ∧ c.toNat ≤ 0x7A) ∨
      c.toNat ∈ [0x17F, 0x212A, 0x130, 0x131] := by
    have hrange : '-'.toNat = 0x2D ∧ '.'.toNat = 0x2E := by decide
    have hcases := labelChar_cases h
    rw [Text.letter_iff, Text.digit_iff] at hcases
    rcases hcases with hc | hc | hc | rfl | rfl <;> first | omega | exact .inr (.inr hc)
  simp only [List.mem_cons, List.not_mem_nil, or_false] at hbounds
  have hne : ∀ x : Char, x.toNat = 0x5B ∨ x.toNat = 0x5D ∨ x.toNat = 0xA → c ≠ x := by
    rintro x hx rfl
    omega
  refine ⟨?_, hne _ (by decide), hne _ (by decide), hne _ (by decide)⟩
  simp only [Text.isBlank, Bool.or_eq_false_iff, Bool.and_eq_false_iff, decide_eq_false_iff_not,
    beq_eq_false_iff_ne]
  omega

/-- The text begins like the label of an RFC with a number. -/
def namesRfc (t : Text) : Bool :=
  Cursor.sees ([(CharSet.only 'R').ignoreCase, (CharSet.only 'F').ignoreCase, (CharSet.only 'C').ignoreCase,
    CharSet.decimal.ignoreCase]) t

/-- What can stand in brackets as a label that is no RFC number. -/
structure IsLabel (s : Text) : Prop where
  ne_nil : s ≠ []
  labelChar : ∀ c ∈ s, labelChar c
  not_rfc : namesRfc s = false

theorem not_mem_bracket {s : Text} (hs : IsLabel s) : '[' ∉ s ∧ ']' ∉ s :=
  ⟨fun h => (apart_of_labelChar (hs.labelChar _ h)).2.1 rfl,
    fun h => (apart_of_labelChar (hs.labelChar _ h)).2.2.1 rfl⟩

end Characters

section Names

/-- The text begins with these letters, perhaps in another case. -/
def beginsLike (lead : String) (t : Text) : Bool :=
  Cursor.sees (lead.toList.map fun c => (CharSet.only c).ignoreCase) t

theorem beginsLike_long (t : Text) :
    beginsLike "I-D.draft-" t = (beginsLike "I-D." t && beginsLike "draft-" (t.drop 4)) :=
  sees_append ("I-D.".toList.map fun c => (CharSet.only c).ignoreCase)
    ("draft-".toList.map fun c => (CharSet.only c).ignoreCase) t

/-- A label with its short form written out. -/
def expanded (label : Text) : Text :=
  if beginsLike "I-D.draft-" label then "draft-".toList ++ label.drop 10
  else if beginsLike "I-D." label then "draft-".toList ++ label.drop 4
  else label

/-- A text that begins with the long form of a name is not written out further. -/
theorem expanded_of_startsWith {s : Text} (h : Text.startsWith "draft-".toList s) : expanded s = s := by
  obtain ⟨rest, rfl⟩ := List.isPrefixOf_iff_prefix.mp h
  have hfirst : (CharSet.only 'I').ignoreCase 'd' = false := by decide
  simp [expanded, beginsLike, Cursor.sees, hfirst]

/-- A hyphen and two digits. -/
def isVersion : Text → Bool
  | [h, c, d] => h == '-' && Text.isDecimal c && Text.isDecimal d
  | _ => false

/-- A name without the version at its end. -/
def unversioned (name : Text) : Text :=
  if isVersion (name.drop (name.length - 3)) then name.take (name.length - 3) else name

/-- The name that a label gives. -/
def stem (label : Text) : Text :=
  unversioned (expanded label)

theorem exists_of_isVersion {v : Text} (h : isVersion v) :
    ∃ c d, v = ['-', c, d] ∧ Text.isDecimal c ∧ Text.isDecimal d := by
  match v, h with
  | [x, c, d], h =>
    simp only [isVersion, Bool.and_eq_true, beq_iff_eq] at h
    obtain ⟨⟨rfl, hc⟩, hd⟩ := h
    exact ⟨c, d, rfl, hc, hd⟩

theorem length_of_isVersion {v : Text} (h : isVersion v) : v.length = 3 := by
  obtain ⟨c, d, rfl, -⟩ := exists_of_isVersion h
  rfl

/-- A version at the end is left out. -/
theorem unversioned_append {name v : Text} (h : isVersion v) : unversioned (name ++ v) = name := by
  have hlength : (name ++ v).length - 3 = name.length := by
    rw [List.length_append, length_of_isVersion h, Nat.add_sub_cancel]
  rw [unversioned, hlength, List.drop_left, if_pos h, List.take_left]

/-- Nothing is left out exactly if there is no version at the end. -/
theorem unversioned_eq_self_iff {name : Text} :
    unversioned name = name ↔ ∀ u v, name = u ++ v → isVersion v = false := by
  constructor
  · rintro h u v rfl
    rw [Bool.eq_false_iff]
    intro hv
    rw [unversioned_append hv, List.self_eq_append_right] at h
    rw [h] at hv
    cases hv
  · intro h
    have hsplit := h _ _ (List.take_append_drop (name.length - 3) name).symm
    rw [unversioned, hsplit, if_neg Bool.false_ne_true]

theorem unversioned_prefix (name : Text) : unversioned name <+: name := by
  unfold unversioned
  split_ifs
  · exact List.take_prefix _ _
  · exact List.prefix_rfl

end Names

section Version

variable {fuel : Nat} {t u v z : Text}

theorem newline_not_mem_of_isVersion (h : isVersion v) : '\n' ∉ v := by
  obtain ⟨c, d, rfl, hc, hd⟩ := exists_of_isVersion h
  have hnewline : Text.isDecimal '\n' = false := by decide
  simp [(Text.ne_of_isDecimal hc hnewline).symm, (Text.ne_of_isDecimal hd hnewline).symm]

theorem exists_of_matchAt_draftVersion {m : Match} (h : draftVersion.matchAt fuel (.amid u v) = some m) :
    ∃ x y, v = x ++ y ∧ isVersion x ∧ (y = [] ∨ y = ['\n']) := by
  obtain ⟨t, hread⟩ := reads_of_matchAt h
  have hrest := hread.advance.1
  obtain ⟨_, _, _, rfl, hhyphen, hread⟩ := hread.of_seq
  obtain ⟨digits, _, _, rfl, hdigits, hend⟩ := hread.of_seq
  obtain ⟨c, rfl, hc⟩ := hhyphen.of_one
  obtain ⟨hlength, hdecimal⟩ := hdigits.of_times_one
  obtain ⟨rfl, hstop, hline⟩ := hend.of_lineEnd
  have hcursor := congrArg Reach.cursor hstop
  simp only at hcursor hline
  rw [← hcursor] at hline
  obtain ⟨d, e, rfl⟩ := List.length_eq_two.mp hlength
  refine ⟨[c, d, e], m.stop.rest, by simpa [Cursor.amid] using hrest, ?_, hline⟩
  simp only [isVersion, Bool.and_eq_true]
  exact ⟨⟨hc, hdecimal d (by simp)⟩, hdecimal e (by simp)⟩

/-- A version is only at the end, or in front of the last line feed. -/
theorem eq_of_matchAt_draftVersion {m : Match} (hz : z = [] ∨ z = ['\n']) (ht : '\n' ∉ t) (huv : t ++ z = u ++ v)
    (h : draftVersion.matchAt fuel (.amid u v) = some m) : ∃ x, t = u ++ x ∧ isVersion x := by
  obtain ⟨x, y, rfl, hx, hy⟩ := exists_of_matchAt_draftVersion h
  have hnewline := newline_not_mem_of_isVersion hx
  refine ⟨x, ?_, hx⟩
  rw [← List.append_assoc] at huv
  rcases hz with rfl | rfl <;> rcases hy with rfl | rfl
  · simpa using huv
  · rw [List.append_nil] at huv
    exact absurd (huv ▸ List.mem_append_right _ (List.mem_singleton_self '\n')) ht
  · rw [List.append_nil] at huv
    have hne : x ≠ [] := List.ne_nil_of_length_eq_add_one (length_of_isVersion hx)
    exact absurd (Text.mem_of_append_eq_concat hne huv.symm) hnewline
  · exact List.append_cancel_right huv

theorem matchAt_draftVersion (u : Text) (hv : isVersion v) (hz : z = [] ∨ z = ['\n']) :
    draftVersion.matchAt fuel (.amid u (v ++ z)) = some ⟨.amid u (v ++ z), .amid (u ++ v) z, []⟩ := by
  obtain ⟨c, d, rfl, hc, hd⟩ := exists_of_isVersion hv
  have hc' : CharSet.decimal c = true := hc
  have hd' : CharSet.decimal d = true := hd
  rcases hz with rfl | rfl <;>
    simp [matchAt, draftVersion, all, lit, literal, times, lineEnd, run, Cursor.step?, Cursor.amid, CharSet.only,
      Anchor.holds, hc', hd']

/-- The version is left out, at the end or in front of a last line feed. -/
theorem substitute_draftVersion_append (hz : z = [] ∨ z = ['\n']) (ht : '\n' ∉ t) :
    draftVersion.substitute [] (t ++ z) = unversioned t ++ z := by
  by_cases hlast : isVersion (t.drop (t.length - 3)) = true
  · obtain ⟨w, v, rfl, hv⟩ : ∃ w v, t = w ++ v ∧ isVersion v :=
      ⟨_, _, (List.take_append_drop (t.length - 3) t).symm, hlast⟩
    have hne : v ≠ [] := List.ne_nil_of_length_eq_add_one (length_of_isVersion hv)
    generalize hfuel : (w ++ v ++ z).length = fuel
    -- In front of the version a match would be longer than one, and behind it shorter.
    have hlength : ∀ {x y : Text} {m : Match}, w ++ v ++ z = x ++ y →
        draftVersion.matchAt fuel (.amid x y) = some m → x.length = w.length := by
      intro x y m hxy hm
      obtain ⟨x', hx', hversion⟩ := eq_of_matchAt_draftVersion hz ht hxy hm
      have hsum := congrArg List.length hx'
      rw [List.length_append, List.length_append, length_of_isVersion hversion, length_of_isVersion hv] at hsum
      omega
    have hfront := replaceAfter_kept draftVersion [] fuel [] w (v ++ z) fun x y hw hy => by
      rw [Option.eq_none_iff_forall_ne_some]
      intro m hm
      rw [List.nil_append] at hm
      have hx := hlength (by rw [hw]; simp) hm
      rw [hw, List.length_append] at hx
      exact hy (List.length_eq_zero_iff.mp (by omega))
    have hmatch : draftVersion.matchAt fuel (.amid w (v ++ z)) = _ := matchAt_draftVersion w hv hz
    have hfound := replaceAfter_found draftVersion [] w v z hne hmatch (by simp [Cursor.amid])
    have hbehind := replaceAfter_kept draftVersion [] fuel (w ++ v) z [] fun x y hz' hy => by
      rw [Option.eq_none_iff_forall_ne_some]
      intro m hm
      have hx := hlength (by rw [hz']; simp) hm
      rw [List.length_append, List.length_append, length_of_isVersion hv] at hx
      omega
    rw [substitute_eq_replaceAfter, hfuel, List.append_assoc, hfront, List.nil_append, hfound, List.nil_append,
      unversioned_append hv]
    rw [List.append_nil, replaceAfter_nil, List.append_nil] at hbehind
    rw [hbehind]
  · rw [unversioned, if_neg hlast]
    refine substitute_eq_self fun u v huv hne => ?_
    rw [Option.eq_none_iff_forall_ne_some]
    intro m hm
    obtain ⟨x, rfl, hx⟩ := eq_of_matchAt_draftVersion hz ht huv hm
    refine hlast ?_
    rwa [List.length_append, length_of_isVersion hx, Nat.add_sub_cancel, List.drop_left]

theorem substitute_draftVersion (h : '\n' ∉ t) : draftVersion.substitute [] t = unversioned t := by
  simpa using substitute_draftVersion_append (.inl rfl) h

end Version

section Short

variable {fuel : Nat} {u v : Text}

theorem matchAt_shortDraft_of_ne_nil (hu : u ≠ []) : shortDraft.matchAt fuel (.amid u v) = none := by
  simp [matchAt, shortDraft, all, ignoreCase, textStart, Anchor.ignoreCase, run, Anchor.holds, Cursor.amid, hu]

/-- The longer of the two short forms is preferred. -/
theorem matchAt_shortDraft (fuel : Nat) (t : Text) :
    shortDraft.matchAt fuel (.amid [] t) =
      if beginsLike "I-D.draft-" t then some ⟨.amid [] t, .amid (t.take 10) (t.drop 10), []⟩
      else if beginsLike "I-D." t then some ⟨.amid [] t, .amid (t.take 4) (t.drop 4), []⟩
      else none := by
  have hshape : shortDraft = .seq (.anchor .textStart) (.seq (literal "I-D.".toList).ignoreCase
      (.alt (literal "draft-".toList).ignoreCase .empty)) :=
    rfl
  have hstart : Anchor.textStart.holds (.amid [] t) = true := rfl
  have htake : t.take 4 ++ (t.drop 4).take 6 = t.take 10 := (List.take_add ..).symm
  rw [hshape, beginsLike_long, matchAt, run, run, if_pos hstart, run, run_row (row_literal_ignoreCase _)]
  cases hid : beginsLike "I-D." t with
  | false =>
    rw [beginsLike] at hid
    rw [hid, if_neg Bool.false_ne_true, Bool.false_and, if_neg Bool.false_ne_true, if_neg Bool.false_ne_true]
  | true =>
    rw [beginsLike] at hid
    rw [hid, if_pos rfl, run, run_row (row_literal_ignoreCase _), run]
    simp only [List.nil_append, List.length_map, String.reduceToList, List.length_cons, List.length_nil,
      Nat.zero_add, Nat.reduceAdd, List.drop_drop, htake, Bool.true_and, if_true]
    have hdraft : Cursor.sees (['d', 'r', 'a', 'f', 't', '-'].map fun c => (CharSet.only c).ignoreCase)
        (t.drop 4) = beginsLike "draft-" (t.drop 4) := rfl
    rw [hdraft]
    cases beginsLike "draft-" (t.drop 4) <;> rfl

theorem substitute_shortDraft (t : Text) : shortDraft.substitute "draft-".toList t = expanded t := by
  have hkept : ∀ fuel u v, u ≠ [] → shortDraft.replaceAfter "draft-".toList fuel u v = v := by
    intro fuel u v hu
    have hrest := replaceAfter_kept shortDraft "draft-".toList fuel u v [] fun x y _ _ =>
      matchAt_shortDraft_of_ne_nil (by simp [hu])
    rwa [replaceAfter_nil, List.append_nil] at hrest
  -- Only the start of the text can be a short form.
  have hfound : ∀ n, 0 < n → n ≤ t.length →
      shortDraft.matchAt t.length (.amid [] t) = some ⟨.amid [] t, .amid (t.take n) (t.drop n), []⟩ →
        shortDraft.substitute "draft-".toList t = "draft-".toList ++ t.drop n := by
    intro n hpos hle hm
    have hne : t.take n ≠ [] := by
      intro hnil
      have hlength := congrArg List.length hnil
      rw [List.length_take, List.length_nil] at hlength
      omega
    have hreplaced := replaceAfter_found shortDraft "draft-".toList [] (t.take n) (t.drop n) hne
      (by rw [List.take_append_drop]; exact hm) (by simp [Cursor.amid])
    rw [List.take_append_drop, List.nil_append, hkept _ _ _ hne] at hreplaced
    rw [substitute_eq_replaceAfter, hreplaced]
  have hmatch := matchAt_shortDraft t.length t
  rw [expanded]
  split_ifs at hmatch ⊢ with hlong hshort
  · exact hfound 10 (by decide) (length_le_of_sees hlong) hmatch
  · exact hfound 4 (by decide) (length_le_of_sees hshort) hmatch
  · refine substitute_eq_self fun u v ht hne => ?_
    rcases List.eq_nil_or_concat u with rfl | ⟨u', c, rfl⟩
    · rw [List.nil_append] at ht
      rw [← ht]
      exact hmatch
    · exact matchAt_shortDraft_of_ne_nil (by simp)

end Short

section Brackets

variable {s : Text}

theorem exists_of_matchAt_outerBrackets {fuel : Nat} {u v : Text} {m : Match}
    (h : outerBrackets.matchAt fuel (.amid u v) = some m) : ∃ w, v = '[' :: w ∨ v = ']' :: w := by
  obtain ⟨t, hread⟩ := reads_of_matchAt h
  have hrest := hread.advance.1
  cases hread with
  | left hread =>
    obtain ⟨x, y, _, rfl, hstart, hread⟩ := hread.of_seq
    cases hstart
    obtain ⟨c, rfl, hc⟩ := hread.of_one
    obtain rfl := beq_iff_eq.mp hc
    exact ⟨_, .inl hrest⟩
  | right hread =>
    obtain ⟨x, y, _, rfl, hread, hend⟩ := hread.of_seq
    obtain ⟨c, rfl, hc⟩ := hread.of_one
    obtain rfl := beq_iff_eq.mp hc
    exact ⟨_, .inr hrest⟩

theorem matchAt_outerBrackets_kept (fuel : Nat) {t x y : Text} (u w : Text) (hopen : '[' ∉ t) (hclose : ']' ∉ t)
    (ht : t = x ++ y) (hy : y ≠ []) : outerBrackets.matchAt fuel (.amid u (y ++ w)) = none := by
  rw [Option.eq_none_iff_forall_ne_some]
  intro m hm
  obtain ⟨c, y, rfl⟩ := List.exists_cons_of_ne_nil hy
  have hmem : c ∈ t := by simp [ht]
  obtain ⟨w', hbracket | hbracket⟩ := exists_of_matchAt_outerBrackets hm
  · exact hopen ((List.cons.inj hbracket).1 ▸ hmem)
  · exact hclose ((List.cons.inj hbracket).1 ▸ hmem)

theorem substitute_outerBrackets (hopen : '[' ∉ s) (hclose : ']' ∉ s) : outerBrackets.substitute [] s = s := by
  refine substitute_eq_self fun u v hs hv => ?_
  have hkept := matchAt_outerBrackets_kept s.length u [] hopen hclose hs hv
  rwa [List.append_nil] at hkept

theorem substitute_outerBrackets_bracketed (hopen : '[' ∉ s) (hclose : ']' ∉ s) :
    outerBrackets.substitute [] ('[' :: s ++ [']']) = s := by
  generalize hfuel : ('[' :: s ++ [']']).length = fuel
  have hopening : outerBrackets.matchAt fuel (.amid [] (['['] ++ (s ++ [']']))) =
      some ⟨.amid [] ('[' :: (s ++ [']'])), .amid ['['] (s ++ [']']), []⟩ := by
    simp [matchAt, outerBrackets, oneOf, textStart, lit, literal, run, Cursor.step?, Cursor.amid,
      CharSet.only, Anchor.holds]
  have hclosing : outerBrackets.matchAt fuel (.amid ('[' :: s) ([']'] ++ [])) =
      some ⟨.amid ('[' :: s) [']'], .amid ('[' :: s ++ [']']) [], []⟩ := by
    simp [matchAt, outerBrackets, oneOf, textStart, lineEnd, lit, literal, run, Cursor.step?,
      Cursor.amid, CharSet.only, Anchor.holds]
  have hfirst := replaceAfter_found outerBrackets [] [] ['['] (s ++ [']']) (by simp) hopening rfl
  have hmiddle := replaceAfter_kept outerBrackets [] fuel ['['] s [']'] fun x y hs hy =>
    matchAt_outerBrackets_kept fuel _ _ hopen hclose hs hy
  have hlast := replaceAfter_found outerBrackets [] ('[' :: s) [']'] [] (by simp) hclosing
    (by simp [Cursor.amid])
  rw [substitute_eq_replaceAfter, hfuel]
  calc outerBrackets.replaceAfter [] fuel [] ('[' :: s ++ [']'])
      = outerBrackets.replaceAfter [] fuel ['['] (s ++ [']']) := hfirst
    _ = s ++ outerBrackets.replaceAfter [] fuel ('[' :: s) [']'] := hmiddle
    _ = s ++ ([] ++ outerBrackets.replaceAfter [] fuel ('[' :: s ++ [']']) []) := congrArg (s ++ ·) hlast
    _ = s := by rw [replaceAfter_nil, List.append_nil, List.append_nil]

end Brackets

section Labels

variable {s : Text}

/-- The name that the label gives, if the word occurs in it. -/
def nameIn? (label : Text) : Option Text :=
  if Text.contains "draft".toList (Text.lower (stem label)) then some (stem label) else none

theorem not_mem_expanded (h : '\n' ∉ s) : '\n' ∉ expanded s := by
  unfold expanded
  split_ifs
  · exact fun hmem => (List.mem_append.mp hmem).elim (by decide) fun hd => h (List.mem_of_mem_drop hd)
  · exact fun hmem => (List.mem_append.mp hmem).elim (by decide) fun hd => h (List.mem_of_mem_drop hd)
  · exact h

theorem draftName?_of_substitute {label : Text} (hbrackets : outerBrackets.substitute [] (Text.trim label) = s)
    (h : '\n' ∉ s) : draftName? label = nameIn? s := by
  simp only [draftName?, nameIn?, stem, hbrackets, substitute_shortDraft,
    substitute_draftVersion (not_mem_expanded h)]
  rfl

/-- The name of a draft in a label as it is. -/
theorem draftName?_eq (h : ∀ c ∈ s, labelChar c) : draftName? s = nameIn? s := by
  apply draftName?_of_substitute
  · rw [Text.trim_eq_self fun c hc => (apart_of_labelChar (h c hc)).1]
    exact substitute_outerBrackets (fun hmem => (apart_of_labelChar (h _ hmem)).2.1 rfl)
      (fun hmem => (apart_of_labelChar (h _ hmem)).2.2.1 rfl)
  · exact fun hmem => (apart_of_labelChar (h _ hmem)).2.2.2 rfl

/-- The name of a draft in a label in brackets. -/
theorem draftName?_bracketed (h : ∀ c ∈ s, labelChar c) : draftName? ('[' :: s ++ [']']) = nameIn? s := by
  apply draftName?_of_substitute
  · have hblank : ∀ c ∈ '[' :: s ++ [']'], Text.isBlank c = false := by
      intro c hc
      rcases List.mem_append.mp hc with hc | hc
      · rcases List.mem_cons.mp hc with rfl | hc
        · decide
        · exact (apart_of_labelChar (h c hc)).1
      · rw [List.mem_singleton.mp hc]
        decide
    rw [Text.trim_eq_self hblank]
    exact substitute_outerBrackets_bracketed (fun hmem => (apart_of_labelChar (h _ hmem)).2.1 rfl)
      (fun hmem => (apart_of_labelChar (h _ hmem)).2.2.1 rfl)
  · exact fun hmem => (apart_of_labelChar (h _ hmem)).2.2.2 rfl

end Labels

end DraftLint.Citation
