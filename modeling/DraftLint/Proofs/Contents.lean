import DraftLint.Proofs.Heading
import DraftLint.Proofs.Text.Numeral
import DraftLint.Proofs.Text.Words
import Mathlib.Data.List.DropRight

/-!
# Lines of a table of contents

Such a line ends in the number of a page.  No heading of a part does, nor does one of a kind of references.  A
heading within a part may end in any words, so there it is the leader in front of the number that tells the two
apart, and a single full stop is taken for one.
-/

namespace DraftLint.Heading

open Pattern

/-- The line ends in a number, as one of a table of contents does. -/
def endsInNumber (t : Text) : Bool :=
  t.getLast?.any Text.isDecimal

section Titles

/-- The headings of parts and of kinds of references. -/
def titles : List Pattern :=
  [introduction, security, authorAddresses, references, iana, normativeReferences, informativeReferences,
    otherReferences]

variable {p : Pattern} {t : Text} {x : Char}

theorem forall_only_ignoreCase :
    (∀ c, (CharSet.only x).ignoreCase c = true → Text.isDecimal c = false) ↔ Text.isDecimal x = false := by
  constructor
  · exact fun h => h x (Text.ignoreCase_of_mem (beq_self_eq_true x))
  · intro hx c hc
    rw [Bool.eq_false_iff]
    intro hdecimal
    rw [Text.ignoreCase_of_isDecimal _ hdecimal, CharSet.only, beq_iff_eq] at hc
    rw [hc, hx] at hdecimal
    cases hdecimal

/-- They end in a letter, or in the colon behind the word for the authors. -/
theorem endsIn_titles : ∀ p ∈ titles, p.EndsIn fun c => Text.isDecimal c = false := by
  have hlast : ∀ x ∈ ['d', 'n', 'r', 's', 'w', 'e', ':'], Text.isDecimal x = false := by decide
  simp only [titles, List.forall_mem_cons, introduction, security, authorAddresses, references, iana,
    normativeReferences, informativeReferences, otherReferences, titled, referencesOf]
  simp [wholeLine, all, oneOf, lit, literal, maybe, textStart, lineEnd, authorOrEditor, Pattern.ignoreCase, EndsIn,
    consumes, forall_only_ignoreCase, hlast]

theorem occursIn_eq_false_of_endsInNumber (h : endsInNumber t) (hp : p ∈ titles) : p.occursIn t = false := by
  have hshape : ∀ p ∈ titles, p.endsLine ∧ p.consumes := by decide
  obtain ⟨c, hc, hdecimal⟩ := (Option.any_eq_true _ _).mp h
  rw [Bool.eq_false_iff]
  intro hoccurs
  rcases last_of_occursIn hoccurs (hshape p hp).1 (hshape p hp).2 (endsIn_titles p hp) c hc with rfl | hnone
  · exact absurd hdecimal (by decide)
  · rw [hnone] at hdecimal
    cases hdecimal

/-- A line that ends in a number opens no part. -/
theorem part?_eq_none_of_endsInNumber (h : endsInNumber t) : part? t = none := by
  have hnone : ∀ p ∈ titles, p.occursIn t = false := fun p => occursIn_eq_false_of_endsInNumber h
  simp only [titles, List.forall_mem_cons] at hnone
  simp [part?, hnone]

theorem opened?_eq_none_of_endsInNumber (h : endsInNumber t) : opened? t = none := by
  have habstract : (t == "Abstract".toList) = false := by
    rw [beq_eq_false_iff_ne]
    rintro rfl
    exact absurd h (by decide)
  rw [opened?, habstract, if_neg Bool.false_ne_true, part?_eq_none_of_endsInNumber h, ite_self]

/-- It announces no references either. -/
theorem referenceKind?_eq_none_of_endsInNumber (h : endsInNumber t) : referenceKind? t = none := by
  have hnone : ∀ p ∈ titles, p.occursIn t = false := fun p => occursIn_eq_false_of_endsInNumber h
  simp only [titles, List.forall_mem_cons] at hnone
  simp [referenceKind?, hnone]

end Titles

section Leader

/-- The full stops and blanks in front of the number that a line ends in. -/
def leader (t : Text) : Text :=
  (t.rdropWhile Text.isDecimal).rtakeWhile fun c => c == '.' || Text.isBlank c

/-- The number of dots between the words of a line and the number that it ends in. -/
def leaderDots (t : Text) : Nat :=
  if endsInNumber t then (leader t).count '.' else 0

variable {t : Text}

theorem rdropWhile_append {p : Char → Bool} {ds : Text} (h : ∀ c ∈ ds, p c) (u : Text) :
    (u ++ ds).rdropWhile p = u.rdropWhile p := by
  rw [List.rdropWhile, List.reverse_append, List.dropWhile_append_of_pos (fun c hc => h c (List.mem_reverse.mp hc)),
    List.rdropWhile]

theorem subset_rtakeWhile_append {p : Char → Bool} {ds : Text} (h : ∀ c ∈ ds, p c) (u : Text) :
    ds ⊆ (u ++ ds).rtakeWhile p := by
  rw [List.rtakeWhile, List.reverse_append, List.takeWhile_append_of_pos (fun c hc => h c (List.mem_reverse.mp hc)),
    List.reverse_append, List.reverse_reverse]
  exact List.subset_append_right _ _

theorem leaderDots_pos_iff : 0 < leaderDots t ↔ endsInNumber t ∧ '.' ∈ leader t := by
  unfold leaderDots
  split_ifs with hnumber
  · simp [hnumber, List.count_pos_iff]
  · simp [hnumber]

theorem referenceKind?_eq_none_of_leaderDots (h : 0 < leaderDots t) : referenceKind? t = none :=
  referenceKind?_eq_none_of_endsInNumber (leaderDots_pos_iff.mp h).1

/-- The last full stop of a leader has nothing but blanks behind it. -/
theorem exists_of_leaderDots (h : 0 < leaderDots t) :
    ∃ u bs ds, t = u ++ '.' :: bs ++ ds ∧ (∀ c ∈ bs, Text.isBlank c) ∧ ds ≠ [] ∧ ∀ c ∈ ds, Text.isDecimal c := by
  obtain ⟨hnumber, hdot⟩ := leaderDots_pos_iff.mp h
  obtain ⟨xs, ys, hsplit, hlast⟩ := List.eq_append_cons_of_mem (List.mem_reverse.mpr hdot)
  have hleader : leader t = ys.reverse ++ '.' :: xs.reverse := by
    rw [← List.reverse_reverse (leader t), hsplit]
    simp
  refine ⟨(t.rdropWhile Text.isDecimal).rdropWhile (fun c => c == '.' || Text.isBlank c) ++ ys.reverse, xs.reverse,
    t.rtakeWhile Text.isDecimal, ?_, ?_, ?_, fun c => List.mem_rtakeWhile_imp⟩
  · rw [List.append_assoc _ ys.reverse, ← hleader, leader, List.rdropWhile_append_rtakeWhile,
      List.rdropWhile_append_rtakeWhile]
  · intro c hc
    have hmem : c ∈ leader t := by
      rw [hleader]
      exact List.mem_append_right _ (List.mem_cons_of_mem _ hc)
    have hset := List.mem_rtakeWhile_imp hmem
    rw [Bool.or_eq_true, beq_iff_eq] at hset
    refine hset.resolve_left ?_
    rintro rfl
    exact hlast (List.mem_reverse.mp hc)
  · obtain ⟨c, hc, hdecimal⟩ := (Option.any_eq_true _ _).mp hnumber
    obtain ⟨u, rfl⟩ := List.getLast?_eq_some_iff.mp hc
    rw [List.rtakeWhile_concat_pos _ _ _ hdecimal]
    exact List.concat_ne_nil c _

theorem leaderDots_pos {u bs ds : Text} (hbs : ∀ c ∈ bs, Text.isBlank c) (hds : ds ≠ [])
    (hdecimal : ∀ c ∈ ds, Text.isDecimal c) : 0 < leaderDots (u ++ '.' :: bs ++ ds) := by
  have hset : ∀ c ∈ '.' :: bs, (c == '.' || Text.isBlank c) = true :=
    List.forall_mem_cons.mpr ⟨rfl, fun c hc => by rw [hbs c hc, Bool.or_true]⟩
  have hstop : ∀ c ∈ '.' :: bs, ¬Text.isDecimal c = true := by
    refine List.forall_mem_cons.mpr ⟨by decide, fun c hc hd => ?_⟩
    have hblank := hbs c hc
    rw [Text.not_isBlank_of_isDecimal hd] at hblank
    cases hblank
  have hwords : (u ++ '.' :: bs).rdropWhile Text.isDecimal = u ++ '.' :: bs := by
    refine List.rdropWhile_eq_self_iff.mpr fun hne => ?_
    rw [List.getLast_append_of_ne_nil _ (List.cons_ne_nil '.' bs)]
    exact hstop _ (List.getLast_mem _)
  obtain ⟨ds', d, rfl⟩ := (List.eq_nil_or_concat ds).resolve_left hds
  refine leaderDots_pos_iff.mpr ⟨?_, ?_⟩
  · rw [endsInNumber, List.concat_eq_append, ← List.append_assoc, List.getLast?_concat]
    exact hdecimal d (by simp)
  · rw [leader, rdropWhile_append hdecimal, hwords]
    exact subset_rtakeWhile_append hset u (List.mem_cons_self ..)

theorem contentsLine_eq : contentsLine = .seq (.atLeastOnce (.one (.only '.')))
    (.seq (.many (.one .blank)) (.seq (.atLeastOnce (.one .decimal)) lineEnd)) :=
  rfl

theorem leaderDots_pos_of_contentsLine {line : Text} (h : Text.trim line = t) (hoccurs : contentsLine.occursIn t) :
    0 < leaderDots t := by
  obtain ⟨m, hm⟩ := Option.isSome_iff_exists.mp hoccurs
  obtain ⟨u, v, rfl, hmatch⟩ := exists_amid_of_search? hm
  obtain ⟨w, hw⟩ := reads_of_matchAt hmatch
  rw [contentsLine_eq] at hw
  have hv : v = w ++ m.stop.rest := hw.advance.1
  have hrest : m.stop.rest = [] := by
    refine (hw.rest_of_endsLine rfl).resolve_right fun hnewline => ?_
    rw [hv, hnewline] at h
    have hlast := Text.not_isBlank_of_trim_eq (h.trans (List.append_assoc ..).symm)
    exact absurd hlast (by decide)
  obtain ⟨dots, _, _, rfl, hdots, hw⟩ := hw.of_seq
  obtain ⟨bs, _, _, rfl, hblanks, hw⟩ := hw.of_seq
  obtain ⟨ds, _, _, rfl, hdigits, hend⟩ := hw.of_seq
  obtain ⟨rfl, -, -⟩ := hend.of_lineEnd
  obtain ⟨hne, hdot⟩ := hdots.of_atLeastOnce_one
  obtain ⟨hds, hdecimal⟩ := hdigits.of_atLeastOnce_one
  obtain ⟨dots', c, rfl⟩ := (List.eq_nil_or_concat dots).resolve_left hne
  obtain rfl := beq_iff_eq.mp (hdot c (by simp))
  have hpos := leaderDots_pos (u := u ++ dots') hblanks.of_many_one hds hdecimal
  rw [hv, hrest]
  simpa using hpos

theorem contentsLine_of_leaderDots_pos (h : 0 < leaderDots t) : contentsLine.occursIn t := by
  obtain ⟨u, bs, ds, rfl, hbs, hds, hdecimal⟩ := exists_of_leaderDots h
  have hdot := Reads.atLeastOnce_amid (s := .only '.') (List.cons_ne_nil '.' []) (by simp [CharSet.only]) u
    (bs ++ ds) []
  have hblanks := Reads.many_amid (s := .blank) hbs (u ++ ['.']) ds []
  have hdigits := Reads.atLeastOnce_amid (s := .decimal) hds hdecimal (u ++ ['.'] ++ bs) [] []
  have hend : Reads lineEnd ⟨.amid (u ++ ['.'] ++ bs ++ ds) [], []⟩ [] ⟨.amid (u ++ ['.'] ++ bs ++ ds) [], []⟩ :=
    .anchor rfl
  rw [List.append_nil] at hdigits
  have hread := hdot.seq (hblanks.seq (hdigits.seq hend))
  refine occursIn_iff.mpr ⟨u, '.' :: (bs ++ ds), by simp, ?_⟩
  rw [contentsLine_eq]
  refine hread.isSome_run ?_ ?_ rfl
  · simp [Direct, atLeastOnce, lineEnd]
  · simp [Cursor.amid]

/-- A trimmed line is taken for one of a table of contents exactly if a dot leads to the number at its end. -/
theorem occursIn_contentsLine {line : Text} (h : Text.trim line = t) : contentsLine.occursIn t ↔ 0 < leaderDots t :=
  ⟨leaderDots_pos_of_contentsLine h, contentsLine_of_leaderDots_pos⟩

theorem withinPart_iff {line : Text} (h : Text.trim line = t) :
    withinPart t ↔ subsection.leads t ∧ leaderDots t = 0 := by
  rw [withinPart, Bool.and_eq_true, Bool.not_eq_true', Bool.eq_false_iff, Ne, occursIn_contentsLine h,
    Nat.pos_iff_ne_zero, not_not]

end Leader

end DraftLint.Heading
