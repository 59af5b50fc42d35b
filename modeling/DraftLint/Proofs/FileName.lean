import DraftLint.FileName
import DraftLint.Proofs.Spelling
import DraftLint.Proofs.Text.LineEnds
import DraftLint.Proofs.Text.SmallLetters

/-!
# The grammar of file names

A name is cut at its last full stop, its characters are looked at, and its components between dashes are counted once
the revision is off.  The end of a line may be in front of a last line feed, so that all of this allows for one line
feed at the end of the name.
-/

namespace DraftLint

namespace Text

variable {sep : Char}

/-- The first piece is empty if there is nothing in front of the first separator. -/
theorem head?_splitOn_eq_nil_iff (sep : Char) (t : Text) :
    (splitOn sep t).head? = some [] ↔ t = [] ∨ t.head? = some sep := by
  cases t with
  | nil => simp [splitOn]
  | cons c t =>
    obtain ⟨piece, pieces, hpieces⟩ := List.exists_cons_of_ne_nil (splitOn_ne_nil sep t)
    rw [splitOn, hpieces]
    split_ifs with hc <;> simp [hc]

/-- An empty piece after the first is between two separators, or behind the last one. -/
theorem nil_mem_tail_splitOn (sep : Char) (t : Text) :
    [] ∈ (splitOn sep t).tail ↔ contains [sep, sep] t ∨ endsWith [sep] t := by
  induction t with
  | nil => simp [splitOn, contains, endsWith]
  | cons c t ih =>
    obtain ⟨piece, pieces, hpieces⟩ := List.exists_cons_of_ne_nil (splitOn_ne_nil sep t)
    have hfirst := head?_splitOn_eq_nil_iff sep t
    rw [hpieces, List.head?_cons, Option.some.injEq] at hfirst
    rw [hpieces, List.tail_cons] at ih
    rw [contains, splitOn, hpieces]
    by_cases hc : c = sep
    · have hpair : startsWith [sep, sep] (c :: t) ↔ t.head? = some sep := by
        rw [startsWith, List.isPrefixOf_iff_prefix, hc, List.cons_prefix_cons]
        cases t with
        | nil => simp
        | cons d t => simp [@eq_comm _ sep d]
      have hend : endsWith [sep] (c :: t) ↔ t = [] ∨ endsWith [sep] t := by
        simp only [endsWith, List.isSuffixOf_iff_suffix, List.suffix_cons_iff, hc, List.cons.injEq, true_and,
          @eq_comm _ [] t]
      rw [if_pos hc, List.tail_cons, List.mem_cons, @eq_comm _ [] piece, hfirst, ih, Bool.or_eq_true, hpair, hend]
      grind
    · have hpair : startsWith [sep, sep] (c :: t) = false := by
        rw [startsWith, Bool.eq_false_iff, ne_eq, List.isPrefixOf_iff_prefix, List.cons_prefix_cons]
        exact fun h => hc h.1.symm
      have hend : endsWith [sep] (c :: t) ↔ endsWith [sep] t := by
        simp only [endsWith, List.isSuffixOf_iff_suffix, List.suffix_cons_iff, List.cons.injEq, @eq_comm _ sep c, hc,
          false_and, false_or]
      rw [if_neg hc, List.tail_cons, ih, hpair, Bool.false_or, hend]

end Text

namespace FileName

open Pattern Citation

section Extension

/-- The extension starts at the last full stop, unless nothing but full stops is in front of it. -/
theorem splitExtension_append {b e : Text} (hb : ∃ c ∈ b.getLast?, c ≠ '.' ∧ c ≠ '/') (hdot : '.' ∉ e)
    (hslash : '/' ∉ e) : splitExtension (b ++ '.' :: e) = (b, '.' :: e) := by
  obtain ⟨b, c, rfl⟩ : ∃ b' c, b = b' ++ [c] := by
    obtain ⟨c, hc, -⟩ := hb
    exact ⟨b.dropLast, c, (List.dropLast_append_getLast? c hc).symm⟩
  obtain ⟨d, hd, hne⟩ := hb
  rw [List.getLast?_concat] at hd
  obtain rfl := Option.some.inj hd
  have hending : ((b ++ [c] ++ '.' :: e).reverse).takeWhile (fun d => d != '/' && d != '.') = e.reverse := by
    rw [List.reverse_append, List.reverse_cons, List.append_assoc, List.takeWhile_append_of_pos]
    · simp
    · intro d hd
      have hmem := List.mem_reverse.mp hd
      simp [ne_of_mem_of_not_mem hmem hdot, ne_of_mem_of_not_mem hmem hslash]
  have hfront : (b ++ [c] ++ '.' :: e).reverse.drop e.reverse.length = '.' :: c :: b.reverse := by
    rw [List.reverse_append, List.reverse_cons, List.append_assoc, List.drop_left, List.reverse_concat]
    rfl
  unfold splitExtension
  simp only [hending, hfront]
  simp [hne.1, hne.2]

theorem exists_splitExtension (path : Text) :
    splitExtension path = (path, []) ∨
      ∃ b e, '.' ∉ e ∧ path = b ++ '.' :: e ∧ splitExtension path = (b, '.' :: e) := by
  unfold splitExtension
  dsimp only
  generalize hending : path.reverse.takeWhile (fun c => c != '/' && c != '.') = ending
  split
  · rename_i stem hfront
    split_ifs with hany
    · right
      have hpath : path.reverse = ending ++ '.' :: stem := by
        rw [← hfront, ← hending]
        exact (List.prefix_iff_eq_append.mp (List.takeWhile_prefix _)).symm
      refine ⟨stem.reverse, ending.reverse, fun hdot => ?_, ?_, rfl⟩
      · rw [List.mem_reverse, ← hending] at hdot
        exact absurd (List.mem_takeWhile_imp hdot) (by decide)
      · rw [← List.reverse_reverse path, hpath]
        simp
    · exact .inl rfl
  · exact .inl rfl

theorem split_of_splitExtension {path b e : Text} (hdot : '.' ∉ e) (h : splitExtension (base path) = (b, '.' :: e)) :
    split path = (b, Text.lower e) := by
  have hrest : e.dropWhile (· == '.') = e := Text.dropWhile_eq_self fun c hc =>
    beq_eq_false_iff_ne.mpr (ne_of_mem_of_not_mem hc hdot)
  rw [split, h]
  dsimp only
  rw [List.dropWhile_cons_of_pos rfl, hrest]

/-- A name has no extension, or one without full stops. -/
theorem exists_split (path : Text) :
    split path = (base path, []) ∨
      ∃ b e, '.' ∉ e ∧ base path = b ++ '.' :: e ∧ split path = (b, Text.lower e) := by
  rcases exists_splitExtension (base path) with h | ⟨b, e, hdot, hbase, h⟩
  · left
    rw [split, h]
    rfl
  · exact .inr ⟨b, e, hdot, hbase, split_of_splitExtension hdot h⟩

end Extension

section Characters

theorem leads_plain_iff {t : Text} :
    plain.leads t ↔ ∃ u z, t = u ++ z ∧ u ≠ [] ∧ (∀ c ∈ u, nameChar c) ∧ (z = [] ∨ z = ['\n']) := by
  constructor
  · intro h
    obtain ⟨m, hm⟩ := Option.isSome_iff_exists.mp h
    obtain ⟨w, hread⟩ := reads_of_match? hm
    have hrest := hread.advance.1
    obtain ⟨_, _, _, rfl, hstart, hread⟩ := hread.of_seq
    cases hstart
    obtain ⟨u, _, _, rfl, hchars, hend⟩ := hread.of_seq
    obtain ⟨hne, hchars⟩ := hchars.of_atLeastOnce_one
    obtain ⟨rfl, hstop, hline⟩ := hend.of_lineEnd
    rw [← hstop] at hline
    exact ⟨u, m.stop.rest, by simpa [Cursor.start] using hrest, hne, hchars, hline⟩
  · rintro ⟨u, z, rfl, hne, hchars, hz⟩
    have hstart : Reads textStart ⟨.amid [] (u ++ z), []⟩ [] ⟨.amid [] (u ++ z), []⟩ := .anchor rfl
    have hend : Reads lineEnd ⟨.amid u z, []⟩ [] ⟨.amid u z, []⟩ := .anchor (by
      rcases hz with rfl | rfl <;> rfl)
    have hread := Reads.atLeastOnce_amid hne hchars [] z []
    exact isSome_match? (hstart.seq (hread.seq hend)) ⟨trivial, ⟨⟨trivial, ⟨_, rfl⟩⟩, trivial⟩⟩

end Characters

/-- A revision is left out as the version in a label is. -/
theorem withoutRevision_append {t z : Text} (hz : z = [] ∨ z = ['\n']) (ht : '\n' ∉ t) :
    withoutRevision (t ++ z) = unversioned t ++ z := by
  have hsame : ∀ fuel c, revision.matchAt fuel c = draftVersion.matchAt fuel c := fun _ _ => rfl
  rw [withoutRevision, substitute_congr hsame]
  exact substitute_draftVersion_append hz ht

section Components

/-- At least three components between dashes, none of them empty, of which the first is the word. -/
structure IsDraftName (name : Text) : Prop where
  three : 3 ≤ (Text.splitOn '-' name).length
  ne_nil : ∀ p ∈ Text.splitOn '-' name, p ≠ []
  first : (Text.splitOn '-' name).head? = some "draft".toList

variable {name : Text}

/-- The first of several components is in front of a dash. -/
theorem startsWith_draft_iff (h : 2 ≤ (Text.splitOn '-' name).length) :
    Text.startsWith "draft-".toList name ↔ (Text.splitOn '-' name).head? = some "draft".toList := by
  have hdraft : Text.splitOn '-' "draft".toList = ["draft".toList] := by decide
  rw [Text.startsWith, List.isPrefixOf_iff_prefix]
  constructor
  · rintro ⟨rest, rfl⟩
    have hsplit := Text.splitOn_append_cons '-' "draft".toList rest
    rw [hdraft] at hsplit
    exact congrArg List.head? hsplit
  · intro hfirst
    have hjoin := Text.join_splitOn '-' name
    obtain ⟨p, pieces, hpieces⟩ := List.exists_cons_of_length_pos (Nat.lt_of_succ_le (Nat.le_of_succ_le h))
    rw [hpieces] at h hfirst hjoin
    obtain ⟨q, pieces, rfl⟩ := List.exists_cons_of_length_pos (Nat.lt_of_succ_le (Nat.le_of_succ_le_succ h))
    obtain rfl := Option.some.inj hfirst
    rw [Text.join, List.intercalate_cons_cons] at hjoin
    rw [← hjoin]
    exact List.prefix_append "draft-".toList _

theorem isMalformed_eq_false_iff {base : Text} :
    isMalformed base = false ↔ IsDraftName (withoutRevision base) := by
  rw [isMalformed]
  generalize withoutRevision base = name
  obtain ⟨piece, pieces, hpieces⟩ := List.exists_cons_of_ne_nil (Text.splitOn_ne_nil '-' name)
  have hempty := Text.nil_mem_tail_splitOn '-' name
  simp only [Bool.or_eq_false_iff, Bool.not_eq_false', decide_eq_false_iff_not, Nat.not_lt]
  constructor
  · rintro ⟨⟨⟨hstart, hdouble⟩, hend⟩, hthree⟩
    have hfirst := (startsWith_draft_iff (Nat.le_of_succ_le hthree)).mp hstart
    refine ⟨hthree, ?_, hfirst⟩
    have hdraft := hfirst
    rw [hpieces] at hempty hdraft ⊢
    obtain rfl := Option.some.inj hdraft
    refine List.forall_mem_cons.mpr ⟨by decide, ?_⟩
    rintro p hp rfl
    rcases hempty.mp hp with h | h
    · exact absurd (hdouble.symm.trans h) Bool.false_ne_true
    · exact absurd (hend.symm.trans h) Bool.false_ne_true
  · rintro ⟨hthree, hne, hfirst⟩
    have hnone : ¬(Text.contains ['-', '-'] name ∨ Text.endsWith ['-'] name) := fun h =>
      hne [] (List.mem_of_mem_tail (hempty.mpr h)) rfl
    rw [not_or, Bool.not_eq_true, Bool.not_eq_true] at hnone
    exact ⟨⟨⟨(startsWith_draft_iff (Nat.le_of_succ_le hthree)).mpr hfirst, hnone.1⟩, hnone.2⟩, hthree⟩

end Components

end FileName

end DraftLint
