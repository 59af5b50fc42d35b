import DraftLint.Proofs.Attempts
import DraftLint.Proofs.Pattern.Finding
import DraftLint.Proofs.Text.Case
import DraftLint.Proofs.Text.Numeral
import DraftLint.Proofs.Text.Words
import DraftLint.Registry.Page

/-!
# Reading the registry

A label that names an RFC by a numeral can be normalized, and so can the name of a draft.  The page of the
registry can be read unless one of its links leads to an RFC with more digits than a number may have.
-/

namespace DraftLint.Registry

open Pattern

section Spelling

/-- Three letters that pass for `rfc` when case is ignored. -/
def PassesForRfc (lead : Text) : Prop :=
  ∃ a b c, lead = [a, b, c] ∧ (CharSet.only 'r').ignoreCase a ∧ (CharSet.only 'f').ignoreCase b ∧
    (CharSet.only 'c').ignoreCase c

theorem PassesForRfc.lower {lead : Text} (h : PassesForRfc lead) :
    ∀ x ∈ lead, CharSet.lower.ignoreCase x := by
  obtain ⟨a, b, c, rfl, ha, hb, hc⟩ := h
  simp only [List.forall_mem_cons]
  exact ⟨Text.lower_ignoreCase_of_only (by decide) ha, Text.lower_ignoreCase_of_only (by decide) hb,
    Text.lower_ignoreCase_of_only (by decide) hc, List.forall_mem_nil _⟩

theorem PassesForRfc.length_eq {lead : Text} (h : PassesForRfc lead) : lead.length = 3 := by
  obtain ⟨a, b, c, rfl, -⟩ := h
  rfl

/-- A spelling of the label of an RFC: its letters, perhaps a blank, the number, and perhaps a last line
feed. -/
structure IsSpelling (lead gap number rest : Text) : Prop where
  lead : PassesForRfc lead
  gap : gap = [] ∨ ∃ c, gap = [c] ∧ Text.isBlank c
  ne_nil : number ≠ []
  isDecimal : ∀ c ∈ number, Text.isDecimal c
  rest : rest = [] ∨ rest = ['\n']

theorem rfcLabel_eq : rfcLabel = .seq (.anchor .textStart) (.seq (ignoreCase (lit "rfc"))
    (.seq (.maybe (.one CharSet.blank.ignoreCase))
      (.seq (.group 1 (.atLeastOnce (.one CharSet.decimal.ignoreCase))) (.anchor .lineEnd)))) :=
  rfl

theorem lit_rfc_eq : ignoreCase (lit "rfc") = .seq (.one (CharSet.only 'r').ignoreCase)
    (.seq (.one (CharSet.only 'f').ignoreCase) (.one (CharSet.only 'c').ignoreCase)) :=
  rfl

theorem passesForRfc_of_reads {r r' : Reach} {t : Text} (h : Reads (ignoreCase (lit "rfc")) r t r') :
    PassesForRfc t := by
  rw [lit_rfc_eq] at h
  obtain ⟨_, _, s, rfl, hfirst, h⟩ := h.of_seq
  obtain ⟨_, _, s', rfl, hsecond, hthird⟩ := h.of_seq
  obtain ⟨a, rfl, ha⟩ := hfirst.of_one
  obtain ⟨b, rfl, hb⟩ := hsecond.of_one
  obtain ⟨c, rfl, hc⟩ := hthird.of_one
  exact ⟨a, b, c, rfl, ha, hb, hc⟩

/-- The number in a label, if the label is that of an RFC. -/
def numberIn? (label : Text) : Option Text :=
  (rfcLabel.match? label).bind (·.group? 1)

/-- What the pattern takes for the label of an RFC is a spelling of it. -/
theorem exists_spelling {t number : Text} (h : numberIn? t = some number) :
    ∃ lead gap rest, t = lead ++ gap ++ number ++ rest ∧ IsSpelling lead gap number rest := by
  obtain ⟨m, hm, hgroup⟩ := Option.bind_eq_some_iff.mp h
  obtain ⟨u, hread⟩ := reads_of_match? hm
  have hadvance := hread.advance.1
  rw [rfcLabel_eq] at hread
  obtain ⟨_, _, _, rfl, hstart, hread⟩ := hread.of_seq
  obtain ⟨lead, _, _, rfl, hlead, hread⟩ := hread.of_seq
  obtain ⟨gap, _, _, rfl, hgap, hread⟩ := hread.of_seq
  obtain ⟨number', _, _, rfl, hcaptured, hend⟩ := hread.of_seq
  obtain ⟨s, hnumber, rfl⟩ := hcaptured.of_group
  obtain ⟨rfl, hstop, hrest⟩ := hend.of_lineEnd
  have hcaptures := congrArg Reach.captures hstop
  have hcursor := congrArg Reach.cursor hstop
  simp only at hcaptures hcursor hrest
  obtain ⟨hne, hdecimal⟩ := hnumber.of_atLeastOnce_one
  cases hstart
  obtain rfl : number' = number := by
    rw [Match.group?, hcaptures, List.find?_cons_of_pos rfl, Option.map_some, hnumber.between_eq] at hgroup
    exact Option.some.inj hgroup
  refine ⟨lead, gap, m.stop.rest, by simpa [Cursor.start] using hadvance, passesForRfc_of_reads hlead, ?_,
    hne, ?_, ?_⟩
  · refine hgap.of_maybe.imp_right fun hread => ?_
    obtain ⟨c, hc, hblank⟩ := hread.of_one
    exact ⟨c, hc, Text.isBlank_of_ignoreCase hblank⟩
  · exact fun c hc => Text.isDecimal_of_ignoreCase (hdecimal c hc)
  · rw [hcursor]
    exact hrest

/-- A spelling of the label of an RFC is taken for one. -/
theorem IsSpelling.isSome_match? {lead gap number : Text} (h : IsSpelling lead gap number []) :
    (rfcLabel.match? (lead ++ gap ++ number)).isSome := by
  have hnumber : ∀ c ∈ number, CharSet.decimal.ignoreCase c :=
    fun c hc => Text.ignoreCase_of_mem (s := CharSet.decimal) (h.isDecimal c hc)
  obtain ⟨a, b, c, rfl, ha, hb, hc⟩ := h.lead
  obtain ⟨d, number, rfl⟩ := List.exists_cons_of_ne_nil h.ne_nil
  have hletters : Reads (ignoreCase (lit "rfc")) ⟨.start ([a, b, c] ++ gap ++ d :: number), []⟩
      ([a] ++ ([b] ++ [c])) ⟨⟨[c, b, a], gap ++ d :: number, 3⟩, []⟩ :=
    (Reads.one _ _ _ _ ha).seq ((Reads.one _ _ _ _ hb).seq (Reads.one _ _ _ _ hc))
  have hdigits : ∀ before pos, ∃ t r, Reads (.seq (.group 1 (.atLeastOnce (.one CharSet.decimal.ignoreCase)))
      (.anchor .lineEnd)) ⟨⟨before, d :: number, pos⟩, []⟩ t r := by
    intro before pos
    have hmore := Reads.many_one (fun x hx => hnumber x (List.mem_cons_of_mem _ hx)) (d :: before) [] (pos + 1) []
    rw [List.append_nil] at hmore
    have hall := (Reads.one before number pos [] (hnumber d (List.mem_cons_self ..))).seq hmore
    exact ⟨_, _, (hall.group (n := 1)).seq (Reads.anchor (a := .lineEnd) rfl)⟩
  have hrest : ∃ t r, Reads (.seq (.maybe (.one CharSet.blank.ignoreCase))
      (.seq (.group 1 (.atLeastOnce (.one CharSet.decimal.ignoreCase))) (.anchor .lineEnd)))
        ⟨⟨[c, b, a], gap ++ d :: number, 3⟩, []⟩ t r := by
    rcases h.gap with rfl | ⟨x, rfl, hx⟩
    · obtain ⟨t, r, ht⟩ := hdigits [c, b, a] 3
      exact ⟨_, _, (Reads.right (p := .one CharSet.blank.ignoreCase) (.empty _)).seq ht⟩
    · obtain ⟨t, r, ht⟩ := hdigits [x, c, b, a] 4
      have hblank := Reads.one [c, b, a] (d :: number) 3 [] (Text.ignoreCase_of_mem (s := CharSet.blank) hx)
      exact ⟨_, _, (Reads.left (q := .empty) hblank).seq ht⟩
  obtain ⟨t, r, ht⟩ := hrest
  have hread := (Reads.anchor (a := .textStart) rfl).seq (hletters.seq ht)
  exact Pattern.isSome_match? (p := rfcLabel) hread
    ⟨trivial, ⟨trivial, trivial, trivial⟩, ⟨trivial, trivial⟩, ⟨trivial, _, rfl⟩, trivial⟩

/-- Behind the letters and the blank stands the number. -/
theorem IsSpelling.dropWhile_eq {lead gap number rest : Text} (h : IsSpelling lead gap number rest) :
    (gap ++ (number ++ rest)).dropWhile Text.isBlank = number ++ rest := by
  have hnumber : (number ++ rest).dropWhile Text.isBlank = number ++ rest := by
    obtain ⟨d, number, rfl⟩ := List.exists_cons_of_ne_nil h.ne_nil
    have hd := Text.not_isBlank_of_isDecimal (h.isDecimal d (List.mem_cons_self ..))
    rw [List.cons_append, List.dropWhile_cons_of_neg (by rw [hd]; exact Bool.false_ne_true)]
  rcases h.gap with rfl | ⟨c, rfl, hc⟩
  · exact hnumber
  · rw [List.singleton_append, List.dropWhile_cons_of_pos hc, hnumber]

/-- A text spells the label of one number only. -/
theorem IsSpelling.number_eq {lead gap number rest lead' gap' number' : Text}
    (h : IsSpelling lead gap number rest) (h' : IsSpelling lead' gap' number' [])
    (heq : lead' ++ gap' ++ number' = lead ++ gap ++ number ++ rest) : number = number' := by
  rw [List.append_assoc, List.append_assoc, List.append_assoc] at heq
  obtain ⟨-, hbehind⟩ := List.append_inj heq (h'.lead.length_eq.trans h.lead.length_eq.symm)
  have hnumbers : number' = number ++ rest := by
    have hdrop := congrArg (List.dropWhile Text.isBlank) hbehind
    have hdrop' := h'.dropWhile_eq
    rw [List.append_nil] at hdrop'
    rwa [hdrop', h.dropWhile_eq] at hdrop
  have hrest : rest = [] := by
    rcases h.rest with hrest | rfl
    · exact hrest
    · exact absurd rfl (Text.ne_of_isDecimal (h'.isDecimal '\n' (by simp [hnumbers])) (by decide))
  rw [hnumbers, hrest, List.append_nil]

/-- The number in a spelling of the label of an RFC. -/
theorem IsSpelling.numberIn?_eq {lead gap number : Text} (h : IsSpelling lead gap number []) :
    numberIn? (lead ++ gap ++ number) = some number := by
  obtain ⟨m, hm⟩ := Option.isSome_iff_exists.mp h.isSome_match?
  obtain ⟨u, hread⟩ := reads_of_match? hm
  obtain ⟨number', hgroup⟩ := exists_group? (n := 1) (p := rfcLabel)
    (.inr (.inr (.inr (.inl (.inl rfl))))) hread
  have hnumber : numberIn? (lead ++ gap ++ number) = some number' := by
    rw [numberIn?, hm, Option.bind_some, hgroup]
  obtain ⟨lead', gap', rest, heq, hspelling⟩ := exists_spelling hnumber
  rw [hnumber, hspelling.number_eq h heq]

/-- The name of a draft is no label of an RFC, which has no letter d in it. -/
theorem IsSpelling.not_mem {lead gap number rest : Text} (h : IsSpelling lead gap number rest) {x : Char}
    (hx : x = 'd' ∨ x = 'D') : x ∉ lead ++ gap ++ number ++ rest := by
  obtain ⟨hr, hf, hc, hblank, hdecimal, hfeed⟩ : (CharSet.only 'r').ignoreCase x = false ∧
      (CharSet.only 'f').ignoreCase x = false ∧ (CharSet.only 'c').ignoreCase x = false ∧
      Text.isBlank x = false ∧ Text.isDecimal x = false ∧ x ≠ '\n' := by
    rcases hx with rfl | rfl <;> decide
  simp only [List.mem_append, not_or]
  refine ⟨⟨⟨?_, ?_⟩, ?_⟩, ?_⟩
  · obtain ⟨a, b, c, rfl, ha, hb, hc'⟩ := h.lead
    simp only [List.mem_cons, List.not_mem_nil, or_false, not_or]
    refine ⟨?_, ?_, ?_⟩
    · rintro rfl
      rw [hr] at ha
      cases ha
    · rintro rfl
      rw [hf] at hb
      cases hb
    · rintro rfl
      rw [hc] at hc'
      cases hc'
  · rcases h.gap with rfl | ⟨c, rfl, hc⟩
    · exact List.not_mem_nil
    · rw [List.mem_singleton]
      rintro rfl
      rw [hblank] at hc
      cases hc
  · intro hmem
    rw [h.isDecimal x hmem] at hdecimal
    cases hdecimal
  · rcases h.rest with rfl | rfl
    · exact List.not_mem_nil
    · simpa using hfeed

end Spelling

section Labels

variable {label : Text}

theorem exists_ofNumeral_iff {t : Text} : (∃ l, ofNumeral t = .ok l) ↔ (Text.integer? t).isSome := by
  unfold ofNumeral
  cases Text.integer? t <;> simp

theorem exists_ofNumeral {t : Text} (h : t.IsNumeral) : ∃ l, ofNumeral t = .ok l := by
  obtain ⟨n, hn, -⟩ := h.integer?
  exact exists_ofNumeral_iff.mpr (Option.isSome_of_mem hn)

theorem normalize_of_number {number : Text} (h : numberIn? (Text.trim label) = some number) :
    normalize label = ofNumeral number := by
  unfold numberIn? at h
  simp only [normalize, h]

theorem normalize_of_none (h : numberIn? (Text.trim label) = none) :
    normalize label = .ok (Text.lower (Text.trim label)) := by
  unfold numberIn? at h
  simp only [normalize, h]

/-- A label can be normalized unless it is that of an RFC with too many digits. -/
theorem exists_normalize_iff : (∃ l, normalize label = .ok l) ↔
    ∀ number, numberIn? (Text.trim label) = some number → number.length ≤ Text.maxNumeralDigits := by
  cases hnumber : numberIn? (Text.trim label) with
  | none =>
    rw [normalize_of_none hnumber]
    simp
  | some number =>
    obtain ⟨lead, gap, rest, -, hspelling⟩ := exists_spelling hnumber
    simp only [Option.some.injEq, forall_eq']
    rw [normalize_of_number hnumber, exists_ofNumeral_iff,
      Text.isSome_integer?_iff hspelling.ne_nil hspelling.isDecimal]

/-- All spellings of the label of an RFC are normalized by their numbers. -/
theorem IsSpelling.normalize_eq {lead gap number : Text} (h : IsSpelling lead gap number []) :
    normalize (lead ++ gap ++ number) = ofNumeral number := by
  have htrim : Text.trim (lead ++ gap ++ number) = lead ++ gap ++ number := by
    apply Text.trim_eq_self_of_ends
    · obtain ⟨a, b, c, rfl, -⟩ := h.lead
      rintro x ⟨⟩
      exact Text.not_isBlank_of_ignoreCase (h.lead.lower a (List.mem_cons_self ..))
    · rw [List.getLast?_append_of_ne_nil _ h.ne_nil]
      intro x hx
      exact Text.not_isBlank_of_isDecimal (h.isDecimal x (List.mem_of_getLast? hx))
  rw [normalize_of_number (by rw [htrim]; exact h.numberIn?_eq)]

/-- The label of an RFC and the name that a link gives are normalized to the same. -/
theorem normalize_label {number : Text} (hne : number ≠ []) (hdecimal : ∀ c ∈ number, Text.isDecimal c) :
    normalize ("RFC ".toList ++ number) = ofNumeral number := by
  have hlead : PassesForRfc "RFC".toList := ⟨'R', 'F', 'C', rfl, by decide, by decide, by decide⟩
  have hspelling : IsSpelling "RFC".toList [' '] number [] :=
    ⟨hlead, .inr ⟨' ', rfl, by decide⟩, hne, hdecimal, .inl rfl⟩
  exact hspelling.normalize_eq

/-- The name of a draft is written in small letters. -/
theorem normalize_of_mem (h : 'd' ∈ label ∨ 'D' ∈ label) :
    normalize label = .ok (Text.lower (Text.trim label)) := by
  apply normalize_of_none
  rw [Option.eq_none_iff_forall_ne_some]
  intro number hnumber
  obtain ⟨lead, gap, rest, htrim, hspelling⟩ := exists_spelling hnumber
  rcases h with hd | hd
  · exact hspelling.not_mem (.inl rfl) (htrim ▸ Text.mem_trim hd (by decide))
  · exact hspelling.not_mem (.inr rfl) (htrim ▸ Text.mem_trim hd (by decide))

/-- The label of an RFC whose number is a numeral. -/
theorem exists_normalize_of_words {number : Text} (hlabel : Text.startsWith "RFC ".toList label)
    (hwords : (Text.words label)[1]? = some number) (h : number.IsNumeral) :
    ∃ l, normalize label = .ok l := by
  rw [exists_normalize_iff]
  intro number' hnumber
  obtain ⟨lead, gap, rest, htrim, hspelling⟩ := exists_spelling hnumber
  obtain ⟨tail, rfl⟩ := List.isPrefixOf_iff_prefix.mp hlabel
  obtain ⟨bs, hbs, heq⟩ := Text.exists_blanks_trim (c := 'R') (by decide) ('F' :: 'C' :: ' ' :: tail)
  change Text.trim ('R' :: 'F' :: 'C' :: ' ' :: tail) = _ at htrim
  rw [htrim, List.append_assoc, List.append_assoc, List.append_assoc] at heq
  change ['R', 'F', 'C'] ++ ' ' :: tail = _ at heq
  obtain ⟨-, heq⟩ := List.append_inj heq hspelling.lead.length_eq.symm
  -- What follows the letters is the one blank, so that the digits are the second word.
  have htail : tail = number' ++ (rest ++ bs) := by
    rcases hspelling.gap with rfl | ⟨c, rfl, -⟩
    · obtain ⟨d, digits, rfl⟩ := List.exists_cons_of_ne_nil hspelling.ne_nil
      obtain rfl := (List.cons.inj heq).1
      exact absurd rfl (Text.ne_of_isDecimal (hspelling.isDecimal ' ' (List.mem_cons_self ..)) (by decide))
    · exact (List.cons.inj heq).2
  have hblanks : ∀ c ∈ rest ++ bs, Text.isBlank c := by
    rw [List.forall_mem_append]
    refine ⟨?_, hbs⟩
    rcases hspelling.rest with rfl | rfl
    · exact List.forall_mem_nil _
    · exact List.forall_mem_singleton.mpr (by decide)
  have hword : ∀ c ∈ number', Text.isBlank c = false :=
    fun c hc => Text.not_isBlank_of_isDecimal (hspelling.isDecimal c hc)
  rw [Text.words_rfc, htail, Text.words_append_blanks hspelling.ne_nil hword hblanks] at hwords
  obtain rfl := Option.some.inj hwords
  exact h.length_le

theorem exists_normalize_of_isNumeral {number : Text} (h : number.IsNumeral) :
    ∃ l, normalize ("RFC ".toList ++ number) = .ok l := by
  rw [normalize_label h.ne_nil h.isDecimal]
  exact exists_ofNumeral h

theorem exists_normalize_of_mem (h : 'd' ∈ label ∨ 'D' ∈ label) : ∃ l, normalize label = .ok l :=
  ⟨_, normalize_of_mem h⟩

end Labels

section Links

/-- The name of the document that a link leads to, if it leads to one. -/
def named? (href : Text) : Option Text :=
  (link.search? href).bind (·.group? 1)

/-- More digits follow the first three letters than a number may have. -/
def Overlong (name : Text) : Prop :=
  (∀ c ∈ name.drop 3, Text.isDecimal c) ∧ Text.maxNumeralDigits < (name.drop 3).length

/-- No link on the page leads to an RFC with too many digits. -/
def Readable (page : Text) : Prop :=
  ∀ href ∈ goals page, ∀ name, named? href = some name → ¬Overlong name

/-- What a link captures. -/
def documentName : Pattern :=
  .alt (.seq (ignoreCase (lit "rfc")) (.atLeastOnce (.one CharSet.decimal.ignoreCase)))
    (.seq (ignoreCase (lit "draft-")) (ignoreCase (seq
      (one (CharSet.or .lower (.or .digit (.only '-'))))
      (few (one (CharSet.or .lower (.or .digit (.only '-'))))))))

theorem encloses_link : link.Encloses fun _ p => p = documentName := by
  simp [link, documentName, all, oneOf, lit, literal, ignoreCase, Encloses, maybe, times, decimals, decimal,
    atLeastOnce, lineEnd]

/-- A link leads to an RFC or to a draft. -/
theorem named?_cases {href name : Text} (h : named? href = some name) :
    (∃ lead digits, name = lead ++ digits ∧ PassesForRfc lead ∧ digits ≠ [] ∧
      ∀ c ∈ digits, Text.isDecimal c) ∨
    ∃ d x y f rest, name = d :: x :: y :: f :: rest ∧ (CharSet.only 'd').ignoreCase d ∧
      (CharSet.only 'f').ignoreCase f := by
  obtain ⟨m, hm, hgroup⟩ := Option.bind_eq_some_iff.mp h
  obtain ⟨c, u, hu⟩ := reads_of_searchFrom hm
  obtain ⟨p, s, s', rfl, hread⟩ := group?_of_reads encloses_link hu hgroup
  cases hread with
  | left hread =>
    left
    obtain ⟨lead, digits, _, rfl, hlead, hdigits⟩ := hread.of_seq
    obtain ⟨hne, hdecimal⟩ := hdigits.of_atLeastOnce_one
    exact ⟨lead, digits, rfl, passesForRfc_of_reads hlead, hne,
      fun c hc => Text.isDecimal_of_ignoreCase (hdecimal c hc)⟩
  | right hread =>
    right
    obtain ⟨lead, more, _, rfl, hlead, -⟩ := hread.of_seq
    obtain ⟨_, _, _, rfl, hfirst, hlead⟩ := hlead.of_seq (q := literal "raft-".toList |>.ignoreCase)
    obtain ⟨_, _, _, rfl, hsecond, hlead⟩ := hlead.of_seq (q := literal "aft-".toList |>.ignoreCase)
    obtain ⟨_, _, _, rfl, hthird, hlead⟩ := hlead.of_seq (q := literal "ft-".toList |>.ignoreCase)
    obtain ⟨_, _, _, rfl, hfourth, -⟩ := hlead.of_seq (q := literal "t-".toList |>.ignoreCase)
    obtain ⟨d, rfl, hd⟩ := hfirst.of_one
    obtain ⟨x, rfl, -⟩ := hsecond.of_one
    obtain ⟨y, rfl, -⟩ := hthird.of_one
    obtain ⟨f, rfl, hf⟩ := hfourth.of_one
    exact ⟨d, x, y, f, _, rfl, hd, hf⟩

/-- The name that a link gives can be normalized unless it has too many digits. -/
theorem exists_normalize_named_iff {href name : Text} (h : named? href = some name) :
    (∃ l, normalize name = .ok l) ↔ ¬Overlong name := by
  rcases named?_cases h with ⟨lead, digits, rfl, hlead, hne, hdecimal⟩ | ⟨d, x, y, f, rest, rfl, hd, hf⟩
  · have hdrop : (lead ++ digits).drop 3 = digits := by
      rw [← hlead.length_eq, List.drop_left]
    have hblank : ∀ c ∈ lead ++ digits, Text.isBlank c = false := by
      rw [List.forall_mem_append]
      exact ⟨fun c hc => Text.not_isBlank_of_ignoreCase (hlead.lower c hc),
        fun c hc => Text.not_isBlank_of_isDecimal (hdecimal c hc)⟩
    have hnumber : numberIn? (lead ++ digits) = some digits := by
      have hspelling : IsSpelling lead [] digits [] := ⟨hlead, .inl rfl, hne, hdecimal, .inl rfl⟩
      have hin := hspelling.numberIn?_eq
      rwa [List.append_nil] at hin
    rw [exists_normalize_iff, Text.trim_eq_self hblank, hnumber, Overlong, hdrop]
    simp only [Option.some.injEq, forall_eq', not_and, Nat.not_lt]
    exact ⟨fun hle _ => hle, fun hle => hle hdecimal⟩
  · have hnot : Text.isDecimal f = false :=
      Text.not_isDecimal_of_ignoreCase (Text.lower_ignoreCase_of_only (by decide) hf)
    have hshort : ¬Overlong (d :: x :: y :: f :: rest) := by
      rintro ⟨hdecimal, -⟩
      rw [hdecimal f (List.mem_cons_self ..)] at hnot
      cases hnot
    have hd' := Text.eq_of_only_d_ignoreCase hd
    refine iff_of_true (exists_normalize_of_mem ?_) hshort
    rcases hd' with rfl | rfl
    · exact .inl (List.mem_cons_self ..)
    · exact .inr (List.mem_cons_self ..)

/-- The page can be read exactly if no link on it leads to an RFC with too many digits. -/
theorem exists_labels_iff {page : Text} : (∃ ls, labels page = .ok ls) ↔ Readable page := by
  have hall : (∃ ls, labels page = .ok ls) ↔ ∃ ls, ((goals page).filterMap ofLink?).mapM id = .ok ls := by
    unfold labels
    cases ((goals page).filterMap ofLink?).mapM id <;> simp [bind, Except.bind, pure, Except.pure]
  rw [hall, Attempts.exists_mapM_eq_ok_iff]
  constructor
  · intro h href hhref name hname
    rw [← exists_normalize_named_iff hname]
    exact h (normalize name) (List.mem_filterMap.mpr ⟨href, hhref, congrArg (Option.map normalize) hname⟩)
  · intro h attempt hattempt
    obtain ⟨href, hhref, hlink⟩ := List.mem_filterMap.mp hattempt
    obtain ⟨name, hname, rfl⟩ := Option.map_eq_some_iff.mp hlink
    exact (exists_normalize_named_iff hname).mpr (h href hhref name hname)

end Links

end DraftLint.Registry
