import DraftLint.Text.Lines
import Mathlib.Tactic.SplitIfs

/-!
# Line ends and tab stops

Unifying line ends leaves no carriage return and expanding tabs leaves no tab, and neither changes a text that
has none.  A line feed divides a text for both of them: what comes before it and what comes after it can be
treated apart.
-/

namespace DraftLint.Text

section Replacing

variable {old : Char} {new t : Text}

/-- One character is replaced wherever it stands. -/
theorem replaceAll_singleton (old : Char) (new t : Text) :
    replaceAll [old] new t = t.flatMap fun c => if c = old then new else [c] := by
  rw [replaceAll]
  induction t with
  | nil => rfl
  | cons c t ih =>
    rw [List.flatMap_cons, replaceAll.go, ih]
    by_cases hc : c = old
    · simp [hc, startsWith, ih]
    · simp [hc, Ne.symm hc, startsWith]

end Replacing

section LineEnds

variable {s t : Text}

theorem not_mem_unifyLineEnds (t : Text) : '\r' ∉ unifyLineEnds t := by
  fun_induction unifyLineEnds t with
  | case1 => exact List.not_mem_nil
  | case2 t ih => exact List.not_mem_cons_of_ne_of_not_mem (by decide) ih
  | case3 t _ ih => exact List.not_mem_cons_of_ne_of_not_mem (by decide) ih
  | case4 c t _ hc ih => exact List.not_mem_cons_of_ne_of_not_mem (fun h => hc h.symm) ih

/-- Nothing but line feeds is put into a text. -/
theorem mem_of_mem_unifyLineEnds {c : Char} (h : c ∈ unifyLineEnds t) : c = '\n' ∨ c ∈ t := by
  fun_induction unifyLineEnds t with
  | case1 => exact .inr h
  | case2 t ih =>
    rcases List.mem_cons.mp h with rfl | h
    · exact .inl rfl
    · exact (ih h).imp_right fun hc => List.mem_cons_of_mem _ (List.mem_cons_of_mem _ hc)
  | case3 t _ ih =>
    rcases List.mem_cons.mp h with rfl | h
    · exact .inl rfl
    · exact (ih h).imp_right (List.mem_cons_of_mem _)
  | case4 d t _ _ ih =>
    rcases List.mem_cons.mp h with rfl | h
    · exact .inr List.mem_cons_self
    · exact (ih h).imp_right (List.mem_cons_of_mem _)

theorem unifyLineEnds_cons {c : Char} (h : c ≠ '\r') (t : Text) :
    unifyLineEnds (c :: t) = c :: unifyLineEnds t := by
  rw [unifyLineEnds]
  · exact fun _ hc => absurd hc h
  · exact h

/-- Text without carriage returns is kept in front of any other. -/
theorem unifyLineEnds_append (h : '\r' ∉ s) (t : Text) :
    unifyLineEnds (s ++ t) = s ++ unifyLineEnds t := by
  induction s with
  | nil => rfl
  | cons c s ih =>
    have hc := List.ne_of_not_mem_cons h
    have hs := List.not_mem_of_not_mem_cons h
    rw [List.cons_append, unifyLineEnds_cons (Ne.symm hc), ih hs, List.cons_append]

theorem unifyLineEnds_eq_self (h : '\r' ∉ t) : unifyLineEnds t = t := by
  have happend := unifyLineEnds_append h []
  rwa [List.append_nil, unifyLineEnds, List.append_nil] at happend

/-- Line feeds that were given a carriage return lose it again. -/
theorem unifyLineEnds_replaceAll_both (h : '\r' ∉ t) :
    unifyLineEnds (replaceAll ['\n'] ['\r', '\n'] t) = t := by
  rw [replaceAll_singleton]
  induction t with
  | nil => rfl
  | cons c t ih =>
    have hc := List.ne_of_not_mem_cons h
    have ht := List.not_mem_of_not_mem_cons h
    rw [List.flatMap_cons]
    split_ifs with hfeed
    · rw [List.cons_append, List.singleton_append, unifyLineEnds, ih ht, hfeed]
    · rw [List.singleton_append, unifyLineEnds_cons (Ne.symm hc), ih ht]

theorem unifyLineEnds_return {t : Text} (h : '\n' ∉ t) :
    unifyLineEnds ('\r' :: t) = '\n' :: unifyLineEnds t := by
  rw [unifyLineEnds]
  rintro t' rfl
  exact h (List.mem_cons_self ..)

/-- Carriage returns in place of line feeds become line feeds again. -/
theorem unifyLineEnds_replaceAll_return (h : '\r' ∉ t) :
    unifyLineEnds (replaceAll ['\n'] ['\r'] t) = t := by
  rw [replaceAll_singleton]
  induction t with
  | nil => rfl
  | cons c t ih =>
    have hc := List.ne_of_not_mem_cons h
    have ht := List.not_mem_of_not_mem_cons h
    have hfeeds : '\n' ∉ t.flatMap fun c => if c = '\n' then ['\r'] else [c] := by
      rw [List.mem_flatMap]
      rintro ⟨d, -, hd⟩
      split_ifs at hd with hfeed
      · exact absurd (List.mem_singleton.mp hd) (by decide)
      · exact hfeed (List.mem_singleton.mp hd).symm
    rw [List.flatMap_cons]
    split_ifs with hfeed
    · rw [List.singleton_append, unifyLineEnds_return hfeeds, ih ht, hfeed]
    · rw [List.singleton_append, unifyLineEnds_cons (Ne.symm hc), ih ht]

end LineEnds

section Tabs

variable {c : Char} {col : Nat} {s t : Text}

theorem not_mem_expandTabsFrom (col : Nat) (t : Text) : '\t' ∉ expandTabsFrom col t := by
  fun_induction expandTabsFrom col t with
  | case1 => exact List.not_mem_nil
  | case2 col t width ih =>
    rw [List.mem_append, not_or]
    exact ⟨fun h => absurd (List.eq_of_mem_replicate h) (by decide), ih⟩
  | case3 col c t htab _ ih => exact List.not_mem_cons_of_ne_of_not_mem (Ne.symm htab) ih
  | case4 col c t htab _ ih => exact List.not_mem_cons_of_ne_of_not_mem (Ne.symm htab) ih

/-- Nothing but spaces is put into a text. -/
theorem mem_of_mem_expandTabsFrom (h : c ∈ expandTabsFrom col t) : c = ' ' ∨ c ∈ t := by
  fun_induction expandTabsFrom col t with
  | case1 => exact .inr h
  | case2 col t width ih =>
    rcases List.mem_append.mp h with h | h
    · exact .inl (List.eq_of_mem_replicate h)
    · exact (ih h).imp_right (List.mem_cons_of_mem _)
  | case3 col d t _ _ ih | case4 col d t _ _ ih =>
    rcases List.mem_cons.mp h with rfl | h
    · exact .inr (List.mem_cons_self ..)
    · exact (ih h).imp_right (List.mem_cons_of_mem _)

theorem expandTabsFrom_eq_self (h : '\t' ∉ t) (col : Nat) : expandTabsFrom col t = t := by
  induction t generalizing col with
  | nil => rfl
  | cons c t ih =>
    have hc := List.ne_of_not_mem_cons h
    have ht := List.not_mem_of_not_mem_cons h
    rw [expandTabsFrom, if_neg (Ne.symm hc), ih ht, ih ht, ite_self]

/-- The columns start again after a line feed. -/
theorem expandTabsFrom_append_newline (col : Nat) (s t : Text) :
    expandTabsFrom col (s ++ '\n' :: t) = expandTabsFrom col s ++ '\n' :: expandTabs t := by
  induction s generalizing col with
  | nil => rfl
  | cons c s ih =>
    simp only [List.cons_append, expandTabsFrom, ih]
    split_ifs
    · rw [List.append_assoc]
    · rfl
    · rfl

theorem count_newline_expandTabsFrom (col : Nat) (t : Text) :
    (expandTabsFrom col t).count '\n' = t.count '\n' := by
  induction t generalizing col with
  | nil => rfl
  | cons c t ih =>
    rw [expandTabsFrom]
    split_ifs with htab
    · rw [htab, List.count_append, List.count_replicate, List.count_cons_of_ne (by decide), ih]
      exact Nat.zero_add _
    · rw [List.count_cons, List.count_cons, ih]
    · rw [List.count_cons, List.count_cons, ih]

end Tabs

section Lines

variable {sep : Char}

theorem splitOn_ne_nil (sep : Char) (t : Text) : splitOn sep t ≠ [] := by
  fun_cases splitOn sep t <;> simp

/-- A separator divides the pieces before it from those after it. -/
theorem splitOn_append_cons (sep : Char) (s t : Text) :
    splitOn sep (s ++ sep :: t) = splitOn sep s ++ splitOn sep t := by
  induction s with
  | nil => simp [splitOn]
  | cons c s ih =>
    rw [List.cons_append, splitOn, splitOn, ih]
    split_ifs
    · rfl
    · obtain ⟨piece, pieces, hpieces⟩ := List.exists_cons_of_ne_nil (splitOn_ne_nil sep s)
      rw [hpieces]
      rfl

/-- There is one more piece than separators. -/
theorem length_splitOn (sep : Char) (t : Text) : (splitOn sep t).length = t.count sep + 1 := by
  induction t with
  | nil => rfl
  | cons c t ih =>
    rw [splitOn]
    split_ifs with hc
    · rw [hc, List.count_cons_self, List.length_cons, ih]
    · rw [List.count_cons_of_ne hc, ← ih]
      obtain ⟨piece, pieces, hpieces⟩ := List.exists_cons_of_ne_nil (splitOn_ne_nil sep t)
      rw [hpieces]
      rfl

/-- Whatever is no separator stands in a piece. -/
theorem exists_piece_of_mem {c : Char} {t : Text} (h : c ∈ t) : c = sep ∨ ∃ p ∈ splitOn sep t, c ∈ p := by
  induction t with
  | nil => cases h
  | cons d t ih =>
    obtain ⟨piece, pieces, hpieces⟩ := List.exists_cons_of_ne_nil (splitOn_ne_nil sep t)
    rw [splitOn, hpieces]
    rw [hpieces] at ih
    rcases List.mem_cons.mp h with rfl | h
    · split_ifs with hd
      · exact .inl hd
      · exact .inr ⟨_, List.mem_cons_self, List.mem_cons_self⟩
    · rcases ih h with hsep | ⟨p, hp, hc⟩
      · exact .inl hsep
      · right
        split_ifs
        · exact ⟨p, List.mem_cons_of_mem _ hp, hc⟩
        · rcases List.mem_cons.mp hp with rfl | hp
          · exact ⟨_, List.mem_cons_self, List.mem_cons_of_mem _ hc⟩
          · exact ⟨p, List.mem_cons_of_mem _ hp, hc⟩

/-- A piece has nothing in it but what is in the text. -/
theorem subset_of_mem_splitOn {p t : Text} (h : p ∈ splitOn sep t) : p ⊆ t := by
  induction t generalizing p with
  | nil =>
    obtain rfl := List.mem_singleton.mp h
    exact List.Subset.refl _
  | cons c t ih =>
    obtain ⟨piece, pieces, hpieces⟩ := List.exists_cons_of_ne_nil (splitOn_ne_nil sep t)
    rw [splitOn, hpieces] at h
    rw [hpieces] at ih
    split_ifs at h
    · rcases List.mem_cons.mp h with rfl | h
      · exact List.nil_subset _
      · exact List.subset_cons_of_subset c (ih h)
    · rcases List.mem_cons.mp h with rfl | h
      · exact List.cons_subset_cons c (ih List.mem_cons_self)
      · exact List.subset_cons_of_subset c (ih (List.mem_cons_of_mem _ h))

/-- The pieces between separators make up the text again. -/
theorem join_splitOn (sep : Char) (t : Text) : join [sep] (splitOn sep t) = t := by
  induction t with
  | nil => rfl
  | cons c t ih =>
    rw [splitOn]
    cases hsplit : splitOn sep t with
    | nil => exact absurd hsplit (splitOn_ne_nil sep t)
    | cons p ps =>
      rw [hsplit] at ih
      split_ifs with hc
      · rw [join, List.intercalate_cons_cons, ← join, ih, hc]
        rfl
      · cases ps with
        | nil =>
          rw [join, List.intercalate_singleton] at ih ⊢
          rw [ih]
        | cons q ps =>
          rw [join, List.intercalate_cons_cons] at ih ⊢
          rw [List.cons_append, List.cons_append, ih]

theorem join_append (sep : Char) {ps qs : List Text} (hps : ps ≠ []) (hqs : qs ≠ []) :
    join [sep] (ps ++ qs) = join [sep] ps ++ sep :: join [sep] qs := by
  induction ps with
  | nil => exact absurd rfl hps
  | cons p ps ih =>
    cases ps with
    | nil =>
      rw [List.singleton_append, join, List.intercalate_cons_of_ne_nil hqs, join, List.intercalate_singleton,
        List.append_assoc]
      rfl
    | cons q ps =>
      rw [List.cons_append, join, List.intercalate_cons_of_ne_nil (by simp), ← join, ih (List.cons_ne_nil q ps)]
      simp only [join, List.intercalate_cons_cons, List.append_assoc]

/-- In front of the last piece, every piece has a separator behind it. -/
theorem join_concat (sep : Char) (pieces : List Text) (last : Text) :
    join [sep] (pieces ++ [last]) = pieces.flatMap (· ++ [sep]) ++ last := by
  induction pieces with
  | nil => exact List.intercalate_singleton
  | cons p ps ih =>
    rw [List.flatMap_cons, List.append_assoc, ← ih, List.cons_append, join, List.intercalate_cons_of_ne_nil (by simp),
      join]

theorem splitOn_of_not_mem {t : Text} (h : sep ∉ t) : splitOn sep t = [t] := by
  induction t with
  | nil => rfl
  | cons c t ih =>
    obtain ⟨hc, ht⟩ := List.ne_and_not_mem_of_not_mem_cons h
    rw [splitOn, if_neg hc.symm, ih ht]

/-- Joined pieces are told apart by the separators. -/
theorem splitOn_join {pieces : List Text} (hne : pieces ≠ []) (h : ∀ p ∈ pieces, sep ∉ p) :
    splitOn sep (join [sep] pieces) = pieces := by
  induction pieces with
  | nil => exact absurd rfl hne
  | cons p ps ih =>
    obtain ⟨hp, hps⟩ := List.forall_mem_cons.mp h
    cases ps with
    | nil =>
      rw [join, List.intercalate_singleton]
      exact splitOn_of_not_mem hp
    | cons q ps =>
      rw [join, List.intercalate_cons_cons, ← join, List.append_assoc, List.singleton_append, splitOn_append_cons,
        splitOn_of_not_mem hp, ih (List.cons_ne_nil q ps) hps]
      rfl

theorem length_lines_expandTabs (t : Text) : (lines (expandTabs t)).length = (lines t).length := by
  rw [lines, lines, length_splitOn, length_splitOn, expandTabs, count_newline_expandTabsFrom]

end Lines

end DraftLint.Text
