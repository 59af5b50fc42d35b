import DraftLint.Proofs.Text.LineEnds
import DraftLint.Proofs.Text.Words

/-!
# Squeezed texts

Line ends, tab stops and runs of blanks make no difference to the words of a text, and a squeezed text is made up of
its words alone.  So two texts are squeezed to the same one exactly if they have the same words.
-/

namespace DraftLint.Text

variable {c d : Char} {s t : Text} {ws : List Text}

/-- The texts have the same words, and begin alike: with a blank, with a word or not at all. -/
structure SameWords (s t : Text) : Prop where
  words_eq : words s = words t
  head_eq : s.head?.map isBlank = t.head?.map isBlank

namespace SameWords

theorem refl (t : Text) : SameWords t t :=
  ⟨rfl, rfl⟩

theorem trans {u : Text} (h : SameWords s t) (h' : SameWords t u) : SameWords s u :=
  ⟨h.words_eq.trans h'.words_eq, h.head_eq.trans h'.head_eq⟩

theorem cons (h : SameWords s t) (c : Char) : SameWords (c :: s) (c :: t) := by
  obtain ⟨hwords, hhead⟩ := h
  refine ⟨?_, rfl⟩
  rw [words.eq_def, words.eq_def (c :: t)]
  cases s with
  | nil =>
    cases t with
    | nil => rfl
    | cons e t => cases hhead
  | cons d s =>
    cases t with
    | nil => cases hhead
    | cons e t =>
      have hblank : isBlank d = isBlank e := Option.some.inj hhead
      simp only [hwords, hblank]

/-- Any blank will do. -/
theorem blank (h : SameWords s t) (hc : isBlank c) (hd : isBlank d) : SameWords (c :: s) (d :: t) := by
  refine ⟨?_, ?_⟩
  · rw [words_of_isBlank hc, words_of_isBlank hd, h.words_eq]
  · rw [List.head?_cons, List.head?_cons, Option.map_some, Option.map_some, hc, hd]

/-- A blank may be doubled. -/
theorem double (h : SameWords s (d :: t)) (hc : isBlank c) (hd : isBlank d) : SameWords (c :: s) (d :: t) := by
  refine ⟨?_, ?_⟩
  · rw [words_of_isBlank hc, h.words_eq]
  · rw [List.head?_cons, List.head?_cons, Option.map_some, Option.map_some, hc, hd]

/-- A run of blanks does as well as one. -/
theorem replicate (h : SameWords s t) (hc : isBlank c) (hd : isBlank d) {n : Nat} (hn : 0 < n) :
    SameWords (List.replicate n c ++ s) (d :: t) := by
  induction n with
  | zero => cases hn
  | succ n ih =>
    rw [List.replicate_succ, List.cons_append]
    cases n with
    | zero => exact h.blank hc hd
    | succ n => exact (ih (Nat.succ_pos n)).double hc hd

end SameWords

theorem sameWords_unifyLineEnds (t : Text) : SameWords (unifyLineEnds t) t := by
  fun_induction unifyLineEnds t with
  | case1 => exact .refl []
  | case2 t ih =>
    refine ⟨?_, rfl⟩
    rw [words_of_isBlank (by decide), ih.words_eq, words_of_isBlank (by decide), words_of_isBlank (by decide)]
  | case3 t _ ih => exact ih.blank (by decide) (by decide)
  | case4 c t _ _ ih => exact ih.cons c

theorem sameWords_expandTabsFrom (col : Nat) (t : Text) : SameWords (expandTabsFrom col t) t := by
  fun_induction expandTabsFrom col t with
  | case1 => exact .refl []
  | case2 col t width ih =>
    have hwidth : 0 < width := Nat.sub_pos_of_lt (Nat.mod_lt col (by decide))
    exact ih.replicate (by decide) (by decide) hwidth
  | case3 col c t _ _ ih | case4 col c t _ _ ih => exact ih.cons c

section Words

/-- A word holds something, and no blanks. -/
theorem words_sound (t : Text) : ∀ w ∈ words t, w ≠ [] ∧ ∀ c ∈ w, isBlank c = false := by
  induction t with
  | nil => exact List.forall_mem_nil _
  | cons c t ih =>
    rw [words.eq_def]
    by_cases hc : isBlank c = true
    · simpa only [hc, if_true] using ih
    · have hone : [c] ≠ [] ∧ ∀ d ∈ [c], isBlank d = false := ⟨List.cons_ne_nil c [], by simpa using hc⟩
      simp only [hc, Bool.false_eq_true, if_false]
      cases t with
      | nil => simpa using hone
      | cons d t =>
        simp only
        split
        · exact List.forall_mem_cons.mpr ⟨hone, ih⟩
        · cases hw : words (d :: t) with
          | nil => simpa using hone
          | cons word rest =>
            rw [hw] at ih
            obtain ⟨⟨-, hword⟩, hrest⟩ := List.forall_mem_cons.mp ih
            refine List.forall_mem_cons.mpr ⟨⟨List.cons_ne_nil c word, ?_⟩, hrest⟩
            exact List.forall_mem_cons.mpr ⟨hone.2 c (List.mem_cons_self ..), hword⟩

/-- Words with single spaces between are told apart again. -/
theorem words_join (h : ∀ w ∈ ws, w ≠ [] ∧ ∀ c ∈ w, isBlank c = false) : words (join [' '] ws) = ws := by
  induction ws with
  | nil => rfl
  | cons w ws ih =>
    obtain ⟨⟨hne, hw⟩, hws⟩ := List.forall_mem_cons.mp h
    cases ws with
    | nil =>
      rw [join, List.intercalate_singleton]
      exact words_eq_singleton hne hw
    | cons w' ws =>
      rw [join, List.intercalate_cons_cons, ← join, List.append_assoc, List.singleton_append,
        words_append_cons hne hw (by decide), ih hws]

theorem words_squeeze (t : Text) : words (squeeze t) = words t :=
  words_join (words_sound t)

/-- Texts are squeezed to the same one exactly if they have the same words. -/
theorem squeeze_eq_iff : squeeze s = squeeze t ↔ words s = words t := by
  constructor
  · intro h
    rw [← words_squeeze s, h, words_squeeze]
  · exact congrArg (join [' '])

/-- A blank divides the words before it from those after it. -/
theorem words_append_blank (hc : isBlank c) (s t : Text) : words (s ++ c :: t) = words s ++ words t := by
  induction s with
  | nil => exact words_of_isBlank hc
  | cons d s ih =>
    by_cases hd : isBlank d = true
    · rw [List.cons_append, words_of_isBlank hd, words_of_isBlank hd, ih]
    rw [Bool.not_eq_true] at hd
    cases s with
    | nil =>
      have hword : ∀ e ∈ [d], isBlank e = false := List.forall_mem_singleton.mpr hd
      rw [words_append_cons (List.cons_ne_nil d []) hword hc, words_eq_singleton (List.cons_ne_nil d []) hword]
      rfl
    | cons e s =>
      rw [List.cons_append] at ih
      rw [List.cons_append, List.cons_append]
      by_cases he : isBlank e = true
      · rw [words_of_isBlank he, words_of_isBlank he] at ih
        rw [words_before_blank hd he, words_before_blank hd he, ih]
        rfl
      · rw [Bool.not_eq_true] at he
        obtain ⟨word, rest, hw⟩ := List.exists_cons_of_ne_nil (words_ne_nil ⟨e, List.mem_cons_self (l := s), he⟩)
        rw [hw, List.cons_append] at ih
        rw [words_in_word hd he ih, words_in_word hd he hw]
        rfl

/-- What has no blanks in it and ends a text ends its last word. -/
theorem exists_words_append (hne : s ≠ []) (hs : ∀ c ∈ s, isBlank c = false) (t : Text) :
    ∃ ws w, words (t ++ s) = ws ++ [w ++ s] := by
  induction t using List.reverseRecOn generalizing s with
  | nil => exact ⟨[], [], words_eq_singleton hne hs⟩
  | append_singleton t c ih =>
    by_cases hc : isBlank c = true
    · refine ⟨words t, [], ?_⟩
      rw [List.append_assoc, List.singleton_append, words_append_blank hc, words_eq_singleton hne hs]
      rfl
    · obtain ⟨ws, w, hws⟩ := ih (List.cons_ne_nil c s) (List.forall_mem_cons.mpr ⟨by simpa using hc, hs⟩)
      refine ⟨ws, w ++ [c], ?_⟩
      rw [List.append_assoc, List.singleton_append, hws, List.append_assoc, List.singleton_append]

theorem join_append_join {sep : Text} {ws ws' : List Text} (h : ws ≠ []) (h' : ws' ≠ []) :
    join sep (ws ++ ws') = join sep ws ++ (sep ++ join sep ws') := by
  induction ws with
  | nil => exact absurd rfl h
  | cons w ws ih =>
    cases ws with
    | nil =>
      obtain ⟨w', ws', rfl⟩ := List.exists_cons_of_ne_nil h'
      rw [List.singleton_append, join, join, join, List.intercalate_cons_cons, List.intercalate_singleton,
        List.append_assoc]
    | cons w₂ ws =>
      have hrest := ih (List.cons_ne_nil w₂ ws)
      rw [join, join, List.cons_append] at hrest
      rw [join, join, List.cons_append, List.cons_append, List.intercalate_cons_cons, List.intercalate_cons_cons, hrest]
      simp only [List.append_assoc]

theorem prefix_join (sep w : Text) (ws : List Text) : w <+: join sep (w :: ws) := by
  cases ws with
  | nil => exact ⟨[], by rw [join, List.intercalate_singleton, List.append_nil]⟩
  | cons w' ws =>
    rw [join, List.intercalate_cons_cons, List.append_assoc]
    exact List.prefix_append _ _

theorem suffix_join (sep w : Text) (ws : List Text) : w <:+ join sep (ws ++ [w]) := by
  have hone : join sep [w] = w := List.intercalate_singleton
  by_cases hws : ws = []
  · exact ⟨[], by rw [hws, List.nil_append, List.nil_append, hone]⟩
  · rw [join_append_join hws (List.cons_ne_nil w []), hone, ← List.append_assoc]
    exact List.suffix_append _ _

/-- Two words with a single space between are left as they are. -/
theorem infix_squeeze {u v : Text} (hs : s ≠ []) (ht : t ≠ []) (hblank : ∀ c ∈ s ++ t, isBlank c = false) :
    s ++ ' ' :: t <:+: squeeze (u ++ (s ++ ' ' :: (t ++ v))) := by
  obtain ⟨hblank, hblank'⟩ := List.forall_mem_append.mp hblank
  obtain ⟨ws, w, hws⟩ := exists_words_append hs hblank u
  have hword : ∀ c ∈ t ++ v.takeWhile (!isBlank ·), isBlank c = false := by
    refine List.forall_mem_append.mpr ⟨hblank', fun c hc => ?_⟩
    simpa using List.mem_takeWhile_imp hc
  have hnext : words (t ++ v) = (t ++ v.takeWhile (!isBlank ·)) :: words (v.dropWhile (!isBlank ·)) := by
    rw [← words_append (List.append_ne_nil_of_left_ne_nil ht _) hword, List.append_assoc, List.takeWhile_append_dropWhile]
    intro c hc
    have hhead := List.head?_dropWhile_not (!isBlank ·) v
    rw [Option.mem_def.mp hc] at hhead
    simpa using hhead
  have hwords : words (u ++ (s ++ ' ' :: (t ++ v))) =
      (ws ++ [w ++ s]) ++ ((t ++ v.takeWhile (!isBlank ·)) :: words (v.dropWhile (!isBlank ·))) := by
    rw [← List.append_assoc, words_append_blank (by decide), hws, hnext]
  obtain ⟨a, ha⟩ := (List.suffix_append w s).trans (suffix_join [' '] (w ++ s) ws)
  obtain ⟨b, hb⟩ := (List.prefix_append t _).trans
    (prefix_join [' '] (t ++ v.takeWhile (!isBlank ·)) (words (v.dropWhile (!isBlank ·))))
  refine ⟨a, b, ?_⟩
  rw [squeeze, hwords, join_append_join (by simp) (List.cons_ne_nil _ _), ← ha, ← hb]
  simp

end Words

end DraftLint.Text
