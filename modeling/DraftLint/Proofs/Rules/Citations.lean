import DraftLint.Proofs.Grading
import DraftLint.Proofs.Markup.Children
import DraftLint.Proofs.Pattern.Context
import DraftLint.Proofs.Text.Words
import DraftLint.Rules.Vocabulary

/-!
# Citations in running text

The rule on citations looks at the text in front of the first child of an element and at the text behind the element,
which it joins by a space.  So it does not look behind children that are no elements with running text themselves, and
finds citations that are torn between the two texts.
-/

namespace DraftLint

namespace Text

/-- A text that comes to nothing when it is trimmed has nothing but blanks in it. -/
theorem not_mem_of_trim_eq_nil {c : Char} {t : Text} (h : trim t = []) (hc : isBlank c = false) : c ∉ t := by
  intro hmem
  have htrim := mem_trim hmem hc
  rw [h] at htrim
  cases htrim

end Text

namespace Citation

open Pattern

variable {t w : Text}

theorem free_lookalike : lookalike.Free := by
  simp [lookalike, all, oneOf, lit, literal, maybe, atLeastOnce, space, Free]

theorem direct_lookalike : lookalike.Direct := by
  simp [lookalike, all, oneOf, lit, literal, maybe, atLeastOnce, space, Direct]

/-- What looks like a citation stands in brackets. -/
theorem brackets_of_fits (h : lookalike.fits w) : w.head? = some '[' ∧ w.getLast? = some ']' := by
  have haccepts := (fits_iff_accepts free_lookalike direct_lookalike).mp h
  obtain ⟨captures, hread⟩ := haccepts [] [] []
  obtain ⟨u, v, _, rfl, hopen, hread⟩ := hread.of_seq
  obtain ⟨v, x, r, rfl, -, hclose⟩ := hread.of_seq
  have hclose : Reads (lit "]") r x _ := hclose
  obtain rfl : u = ['['] := hopen.of_literal.trans (by decide)
  obtain rfl : x = [']'] := hclose.of_literal.trans (by decide)
  exact ⟨rfl, by rw [← List.append_assoc, List.getLast?_concat]⟩

theorem brackets_of_occursIn (h : lookalike.occursIn t) : '[' ∈ t ∧ ']' ∈ t := by
  obtain ⟨w, hw, hfits⟩ := (occursIn_iff_fits free_lookalike direct_lookalike).mp h
  obtain ⟨hopen, hclose⟩ := brackets_of_fits hfits
  exact ⟨hw.subset (List.mem_of_mem_head? hopen), hw.subset (List.mem_of_mem_getLast? hclose)⟩

theorem occursIn_nil : lookalike.occursIn [] = false := by
  decide

/-- A citation begins in one text and ends in another, with a space between. -/
def Torn (s t : Text) : Prop :=
  ∃ x y, x <:+ s ∧ y <+: t ∧ lookalike.fits (x ++ ' ' :: y)

theorem Torn.brackets {s t : Text} (h : Torn s t) : '[' ∈ s ∧ ']' ∈ t := by
  obtain ⟨x, y, hx, hy, hfits⟩ := h
  obtain ⟨hopen, hclose⟩ := brackets_of_fits hfits
  constructor
  · cases x with
    | nil => cases hopen
    | cons c x =>
      obtain rfl := Option.some.inj hopen
      exact hx.subset List.mem_cons_self
  · rcases List.eq_nil_or_concat' y with rfl | ⟨y, c, rfl⟩
    · rw [List.getLast?_concat] at hclose
      cases hclose
    · rw [← List.cons_append, ← List.append_assoc, List.getLast?_concat] at hclose
      obtain rfl := Option.some.inj hclose
      exact hy.subset (List.mem_append_right y (List.mem_singleton_self _))

end Citation

namespace Rules

open Finding Issue Markup Citation

/-- An element with running text in which a citation could stand. -/
def IsRunning (e : Element) : Prop :=
  Text.isOneOf e.name runningElements

/-- Something looks like a citation in the text in front of the first child, in the text behind the element, or torn
between them. -/
structure Marked (o : Occurrence) : Prop where
  running : IsRunning o.element
  cites : lookalike.occursIn o.element.leadText ∨ lookalike.occursIn o.tail ∨ Torn o.element.leadText o.tail

/-- Blank texts are left out, but no citation has to do with them. -/
theorem occursIn_nearText (o : Occurrence) :
    lookalike.occursIn (nearText o) ↔
      lookalike.occursIn o.element.leadText ∨ lookalike.occursIn o.tail ∨ Torn o.element.leadText o.tail := by
  obtain ⟨e, parent, tail⟩ := o
  rw [nearText]
  dsimp only
  generalize e.leadText = lead
  by_cases hlead : Text.trim lead = []
  · have hopen := Text.not_mem_of_trim_eq_nil hlead (c := '[') (by decide)
    have hfront : ¬lookalike.occursIn lead := fun h => hopen (brackets_of_occursIn h).1
    have htorn : ¬Torn lead tail := fun h => hopen h.brackets.1
    by_cases htail : Text.trim tail = []
    · have hbehind : ¬lookalike.occursIn tail := fun h =>
        Text.not_mem_of_trim_eq_nil htail (c := '[') (by decide) (brackets_of_occursIn h).1
      simp [hlead, htail, Text.join, occursIn_nil, hfront, hbehind, htorn]
    · simp [hlead, htail, Text.join, hfront, htorn]
  · by_cases htail : Text.trim tail = []
    · have hclose := Text.not_mem_of_trim_eq_nil htail (c := ']') (by decide)
      have hbehind : ¬lookalike.occursIn tail := fun h => hclose (brackets_of_occursIn h).2
      have htorn : ¬Torn lead tail := fun h => hclose h.brackets.2
      simp [hlead, htail, Text.join, hbehind, htorn]
    · have hjoin : Text.join [' '] ([lead, tail].filter fun t => !(Text.trim t).isEmpty) = lead ++ ' ' :: tail := by
        simp [hlead, htail, Text.join]
      rw [hjoin]
      exact Pattern.occursIn_append_cons free_lookalike direct_lookalike lead ' ' tail

section Found

variable {d : Markup.Document} {o : Occurrence}

/-- The elements that are found, each with the first of the texts that look like citations. -/
def lookalikes (root : Element) : List (Element × Text) :=
  root.walk.filterMap fun o =>
    if Text.isOneOf o.element.name runningElements then
      (lookalike.search? (nearText o)).map fun m => (o.element, m.text)
    else none

theorem exists_found_iff {e : Element} {root : Element} :
    (∃ s, (e, s) ∈ lookalikes root) ↔ ∃ o ∈ root.walk, Marked o ∧ o.element = e := by
  constructor
  · rintro ⟨s, hs⟩
    obtain ⟨o, ho, hfound⟩ := List.mem_filterMap.mp hs
    split_ifs at hfound with hrunning
    obtain ⟨m, hm, heq⟩ := Option.map_eq_some_iff.mp hfound
    have hoccurs : lookalike.occursIn (nearText o) := by rw [Pattern.occursIn, hm]; rfl
    exact ⟨o, ho, ⟨hrunning, (occursIn_nearText o).mp hoccurs⟩, congrArg Prod.fst heq⟩
  · rintro ⟨o, ho, hmarked, rfl⟩
    obtain ⟨m, hm⟩ := Option.isSome_iff_exists.mp ((occursIn_nearText o).mpr hmarked.cites)
    refine ⟨m.text, List.mem_filterMap.mpr ⟨o, ho, ?_⟩⟩
    have hrunning : Text.isOneOf o.element.name runningElements = true := hmarked.running
    rw [if_pos hrunning, hm]
    rfl

theorem lookalikes_eq_nil_iff {root : Element} : lookalikes root = [] ↔ ∀ o ∈ root.walk, ¬Marked o := by
  constructor
  · intro hnil o ho hmarked
    obtain ⟨s, hs⟩ := exists_found_iff.mpr ⟨o, ho, hmarked, rfl⟩
    rw [hnil] at hs
    cases hs
  · intro hnone
    refine List.eq_nil_iff_forall_not_mem.mpr fun ⟨e, s⟩ hs => ?_
    obtain ⟨o, ho, hmarked, -⟩ := exists_found_iff.mp ⟨s, hs⟩
    exact hnone o ho hmarked

/-- The nit about what looks like a citation. -/
def citationNit (found : List (Element × Text)) : Nit where
  severity := .warning
  code := "TEXT_LOOKS_LIKE_REF"
  message := (citationLookalikes found.length (found.map (·.2))).message
  reference := (citationLookalikes found.length (found.map (·.2))).reference?
  places := some (found.map fun f => ⟨f.1.line, none⟩)

theorem nits_citations_eq (d : Markup.Document) :
    (citations (.markup d)).nits .normal =
      .ok (if lookalikes d.root = [] then [] else [citationNit (lookalikes d.root)]) := by
  have hverdict : citations (.markup d) = .of (about ((lookalikes d.root).map (·.1))
      (citationLookalikes (lookalikes d.root).length ((lookalikes d.root).map (·.2)))) := rfl
  rw [hverdict, about]
  split_ifs with hnil hempty hempty
  · rfl
  · exact absurd (List.map_eq_nil_iff.mp (List.isEmpty_iff.mp hnil)) hempty
  · rw [hempty] at hnil
    exact absurd rfl hnil
  · rw [citationNit, Verdict.nits, Verdict.of, onLines, List.map_map, List.map_map]
    rfl

/-- The rule reports text that looks like a citation. -/
def ReportsCitations (d : Markup.Document) : Prop :=
  ∃ ns n, (citations (.markup d)).nits .normal = .ok ns ∧ n ∈ ns ∧ n.code = "TEXT_LOOKS_LIKE_REF"

theorem reportsCitations_iff : ReportsCitations d ↔ ∃ o ∈ d.root.walk, Marked o := by
  have hfound : (∃ o ∈ d.root.walk, Marked o) ↔ lookalikes d.root ≠ [] := by
    rw [ne_eq, lookalikes_eq_nil_iff]
    simp
  rw [hfound, ReportsCitations, nits_citations_eq]
  constructor
  · rintro ⟨ns, n, hns, hn, -⟩ hnil
    rw [if_pos hnil, Except.ok.injEq] at hns
    rw [← hns] at hn
    cases hn
  · intro hne
    exact ⟨_, _, by rw [if_neg hne], List.mem_singleton_self _, rfl⟩

theorem nits_citations_eq_nil_iff :
    (citations (.markup d)).nits .normal = .ok [] ↔ ∀ o ∈ d.root.walk, ¬Marked o := by
  rw [nits_citations_eq, ← lookalikes_eq_nil_iff]
  split_ifs with hnil
  · exact iff_of_true rfl hnil
  · exact iff_of_false (fun h => by cases Except.ok.inj h) hnil

/-- No citation directly inside an element with running text is missed, and where no text has a citation in it there is
nothing to report. -/
structure FindsCitations (d : Markup.Document) : Prop where
  reports : ∀ e ∈ d.root.all, IsRunning e → ∀ t ∈ e.directTexts, lookalike.occursIn t → ReportsCitations d
  silent : (∀ e ∈ d.root.all, ∀ t ∈ e.directTexts, ¬lookalike.occursIn t) →
    (citations (.markup d)).nits .normal = .ok []

theorem findsCitations_iff : FindsCitations d ↔
    ((∃ o ∈ d.root.walk, Marked o) ∨
      ∀ e ∈ d.root.all, IsRunning e → ∀ t ∈ tailsOf e.content, ¬lookalike.occursIn t) ∧
    ((∃ e ∈ d.root.all, ∃ t ∈ e.directTexts, lookalike.occursIn t) ∨
      ∀ o ∈ d.root.walk, IsRunning o.element → ¬Torn o.element.leadText o.tail) := by
  constructor
  · rintro ⟨hreports, hsilent⟩
    constructor
    · by_cases hmarked : ∃ o ∈ d.root.walk, Marked o
      · exact .inl hmarked
      · refine .inr fun e he hrunning t ht hcites => hmarked (reportsCitations_iff.mp ?_)
        exact hreports e he hrunning t (List.mem_cons_of_mem _ ht) hcites
    · by_cases hcites : ∃ e ∈ d.root.all, ∃ t ∈ e.directTexts, lookalike.occursIn t
      · exact .inl hcites
      · refine .inr fun o ho hrunning htorn => ?_
        have hnone := hsilent fun e he t ht h => hcites ⟨e, he, t, ht, h⟩
        exact nits_citations_eq_nil_iff.mp hnone o ho ⟨hrunning, .inr (.inr htorn)⟩
  · rintro ⟨hmissed, hfalse⟩
    constructor
    · intro e he hrunning t ht hcites
      rw [reportsCitations_iff]
      rcases hmissed with hmarked | hnone
      · exact hmarked
      · rcases List.mem_cons.mp ht with rfl | ht
        · obtain ⟨o, ho, rfl⟩ := List.mem_map.mp he
          exact ⟨o, ho, hrunning, .inl hcites⟩
        · exact absurd hcites (hnone e he hrunning t ht)
    · intro hnone
      rw [nits_citations_eq_nil_iff]
      rintro o ho ⟨hrunning, hlead | htail | htorn⟩
      · exact hnone o.element (List.mem_map_of_mem ho) _ List.mem_cons_self hlead
      · rcases List.mem_cons.mp ho with rfl | ho
        · have htail : lookalike.occursIn [] := htail
          rw [occursIn_nil] at htail
          cases htail
        · obtain ⟨e, he, hmem⟩ := Element.exists_mem_directTexts ho
          exact hnone e he o.tail hmem htail
      · rcases hfalse with ⟨e, he, t, ht, hcites⟩ | hwhole
        · exact hnone e he t ht hcites
        · exact hwhole o ho hrunning htorn

end Found

/-- The rule on citations comes to nits, which are none exactly if no element with running text has something that looks
like a citation in front of its first child, right behind itself, or torn between the two, and name the lines of those
that have.  So nothing is missed and nothing found without reason exactly unless there is a citation behind a child and
nothing is reported, or a citation is torn and no text has one. -/
theorem nits_citations (d : Markup.Document) :
    (∃ ns, (citations (.markup d)).nits .normal = .ok ns ∧ (ns = [] ↔ ∀ o ∈ d.root.walk, ¬Marked o) ∧
      ∀ n ∈ ns, n.code = "TEXT_LOOKS_LIKE_REF" ∧ ∃ places, n.places = some places ∧
        ∀ place, place ∈ places ↔ ∃ o ∈ d.root.walk, Marked o ∧ place = ⟨o.element.line, none⟩) ∧
    (FindsCitations d ↔
      ((∃ o ∈ d.root.walk, Marked o) ∨
        ∀ e ∈ d.root.all, IsRunning e → ∀ t ∈ tailsOf e.content, ¬lookalike.occursIn t) ∧
      ((∃ e ∈ d.root.all, ∃ t ∈ e.directTexts, lookalike.occursIn t) ∨
        ∀ o ∈ d.root.walk, IsRunning o.element → ¬Torn o.element.leadText o.tail)) := by
  refine ⟨⟨_, nits_citations_eq d, ?_, ?_⟩, findsCitations_iff⟩
  · rw [← lookalikes_eq_nil_iff]
    by_cases hnil : lookalikes d.root = []
    · rw [if_pos hnil]
      exact iff_of_true rfl hnil
    · rw [if_neg hnil]
      exact iff_of_false (List.cons_ne_nil _ _) hnil
  · intro n hn
    split_ifs at hn
    · cases hn
    · obtain rfl := List.mem_singleton.mp hn
      refine ⟨rfl, _, rfl, fun place => ?_⟩
      rw [List.mem_map]
      constructor
      · rintro ⟨⟨e, s⟩, hs, rfl⟩
        obtain ⟨o, ho, hmarked, rfl⟩ := exists_found_iff.mp ⟨s, hs⟩
        exact ⟨o, ho, hmarked, rfl⟩
      · rintro ⟨o, ho, hmarked, rfl⟩
        obtain ⟨s, hs⟩ := exists_found_iff.mpr ⟨o, ho, hmarked, rfl⟩
        exact ⟨_, hs, rfl⟩

/-- A paragraph with a citation behind another element. -/
def citingDocument : Markup.Document where
  fileName := none
  root := ⟨⟨"rfc".toList, 1, []⟩, [.element ⟨"t".toList, 1, []⟩
    [.text "See ".toList, .element ⟨"em".toList, 1, []⟩ [.text "x".toList], .text " [RFC2119].".toList]]⟩
  entities := []
  kind := .unknown

/-- An item with a citation that is torn between its paragraph and what stands behind it. -/
def tornDocument : Markup.Document where
  fileName := none
  root := ⟨⟨"rfc".toList, 1, []⟩, [.element ⟨"li".toList, 1, []⟩
    [.element ⟨"t".toList, 1, []⟩ [.text "[RFC".toList], .text "2119]".toList]]⟩
  entities := []
  kind := .unknown

/-- The first citation is missed, and the second one found. -/
theorem not_findsCitations : ¬FindsCitations citingDocument ∧ ¬FindsCitations tornDocument := by
  constructor
  · rintro ⟨hreports, -⟩
    have hsilent : (citations (.markup citingDocument)).nits .normal = .ok [] := by decide +kernel
    obtain ⟨ns, n, hns, hn, -⟩ := hreports ⟨⟨"t".toList, 1, []⟩,
      [.text "See ".toList, .element ⟨"em".toList, 1, []⟩ [.text "x".toList], .text " [RFC2119].".toList]⟩
      (by simp [citingDocument, Element.all, Element.walk, Element.inner, occurrencesIn, Node.occurrences])
      rfl " [RFC2119].".toList (by decide) (by decide)
    rw [hsilent] at hns
    rw [← Except.ok.inj hns] at hn
    cases hn
  · rintro ⟨-, hsilent⟩
    have hnone : ∀ e ∈ tornDocument.root.all, ∀ t ∈ e.directTexts, ¬lookalike.occursIn t := by decide +kernel
    have hreported : (citations (.markup tornDocument)).nits .normal ≠ .ok [] := by decide +kernel
    exact hreported (hsilent hnone)

end Rules
end DraftLint
