import DraftLint.Proofs.Pattern.Preference
import DraftLint.Proofs.Plain.Listing
import DraftLint.Proofs.Text.Words

/-!
# Places of items

Some items are noted with their places.  These lie on lines of the document, in columns of these lines, and
from there on the line shows what the item is about.  Signs of bad layout are noted once for each line at
most, so that the lines of their places rise.
-/

namespace DraftLint

namespace Plain

open Pattern

/-- A combination of keywords that has no meaning comes first. -/
def BeginsCombination (t : Text) : Prop :=
  ∃ combination ∈ ["MUST not", "SHALL not", "SHOULD not", "not RECOMMENDED", "MAY NOT", "NOT REQUIRED",
    "NOT OPTIONAL"], combination.toList <+: t

/-- A mark of a comment comes first, or a number sign after nothing but spaces. -/
def BeginsComment (t : Text) : Prop :=
  "/*".toList <+: t ∨ "*/".toList <+: t ∨ ∃ n, List.replicate n ' ' ++ ['#'] <+: t

/-- A hyphen comes first, and nothing but blanks after it. -/
def IsLastHyphen (t : Text) : Prop :=
  ∃ bs, t = '-' :: bs ∧ ∀ b ∈ bs, Text.isBlank b

/-- The places lie in columns of these lines, from where on the lines show something. -/
def Marks (shows : Text → Prop) (lines : List (Nat × Text)) (ps : List Place) : Prop :=
  ∀ p ∈ ps, ∃ line c, (p.line, line) ∈ lines ∧ p.column = some c ∧ 1 ≤ c ∧ c ≤ line.length ∧
    shows (line.drop (c - 1))

/-- The places are marked on one line after the other. -/
structure MarksInTurn (shows : Text → Prop) (lines : List (Nat × Text)) (ps : List Place) : Prop where
  marks : Marks shows lines ps
  rising : ps.Pairwise fun p p' => p.line < p'.line

section Marks

variable {shows : Text → Prop} {n : Nat} {lines : List (Nat × Text)} {line : Text} {ps new : List Place}

theorem marks_nil : Marks shows lines [] :=
  List.forall_mem_nil _

theorem Marks.more (h : Marks shows lines ps) (l : Nat × Text) : Marks shows (lines ++ [l]) ps := by
  intro p hp
  obtain ⟨line, c, hl, hc⟩ := h p hp
  exact ⟨line, c, List.mem_append_left _ hl, hc⟩

theorem Marks.concat (h : Marks shows lines ps) (hnew : Marks shows [(n, line)] new) :
    Marks shows (lines ++ [(n, line)]) (ps ++ new) := by
  intro p hp
  rcases List.mem_append.mp hp with hp | hp
  · exact h.more _ p hp
  · obtain ⟨l, c, hl, hc⟩ := hnew p hp
    exact ⟨l, c, List.mem_append_right _ hl, hc⟩

theorem marksInTurn_nil : MarksInTurn shows lines [] :=
  ⟨marks_nil, .nil⟩

theorem MarksInTurn.more (h : MarksInTurn shows lines ps) (l : Nat × Text) :
    MarksInTurn shows (lines ++ [l]) ps :=
  ⟨h.marks.more l, h.rising⟩

/-- At most one place on the next line. -/
theorem MarksInTurn.concat (h : MarksInTurn shows lines ps) (hb : Text.Below n lines)
    (hnew : Marks shows [(n + 1, line)] new) (hone : new.length ≤ 1) :
    MarksInTurn shows (lines ++ [(n + 1, line)]) (ps ++ new) := by
  refine ⟨h.marks.concat hnew, List.pairwise_append.mpr ⟨h.rising, ?_, ?_⟩⟩
  · match new, hone with
    | [], _ => exact .nil
    | [p], _ => exact List.pairwise_singleton _ p
  · intro p hp p' hp'
    obtain ⟨l, c, hl, -⟩ := h.marks p hp
    obtain ⟨l', c', hl', -⟩ := hnew p' hp'
    have hle := hb _ hl
    obtain ⟨heq, -⟩ := Prod.mk.inj (List.mem_singleton.mp hl')
    simp only at hle
    omega

end Marks

section Line

variable {num : Nat} {line : Text}

theorem ne_nil_of_isVisible (h : Text.isVisible line) : line ≠ [] := by
  rintro rfl
  cases h

/-- A place is marked where something begins that is not empty. -/
theorem mark_of_prefix {shows : Text → Prop} {k : Nat} {u v w : Text} (hdrop : (u ++ v).drop k = v)
    (hk : k = u.length) (hw : w <+: v) (hne : w ≠ []) (hshows : shows v) :
    ∃ line c, (num, line) ∈ [(num, u ++ v)] ∧ some (k + 1) = some c ∧ 1 ≤ c ∧ c ≤ line.length ∧
      shows (line.drop (c - 1)) := by
  have hlength := List.length_pos_iff.mpr hne
  have hle := hw.length_le
  refine ⟨u ++ v, k + 1, List.mem_singleton_self _, rfl, by omega, ?_, ?_⟩
  · rw [hk, List.length_append]
    omega
  · rwa [Nat.add_sub_cancel, hdrop]

theorem marks_combinations :
    Marks BeginsCombination [(num, line)]
      ((RequirementLevel.badCombination.scan line).map fun m => ⟨num, some (m.start.pos + 1)⟩) := by
  intro p hp
  obtain ⟨m, hm, rfl⟩ := List.mem_map.mp hp
  obtain ⟨u, v, rfl, hmatch⟩ := exists_amid_of_mem_scan hm
  obtain ⟨hdrop, hpos, w, r', hw, hread⟩ := exists_reads_of_amid hmatch
  obtain ⟨q, hq, hread⟩ := hread.of_oneOf (by simp)
  obtain ⟨combination, hcombination, rfl⟩ := List.mem_map.mp hq
  obtain rfl := hread.of_literal
  have hne : combination.toList ≠ [] := by
    have hall : ∀ s ∈ ["MUST not", "SHALL not", "SHOULD not", "not RECOMMENDED", "MAY NOT", "NOT REQUIRED",
      "NOT OPTIONAL"], s.toList ≠ [] := by decide
    exact hall combination hcombination
  exact mark_of_prefix hdrop hpos hw hne ⟨combination, hcombination, hw⟩

theorem beginsComment_of_reads {u v w : Text} {r' : Reach} (hw : w <+: v)
    (h : Reads Layout.comment ⟨.amid u v, []⟩ w r') : w ≠ [] ∧ BeginsComment v := by
  obtain ⟨q, hq, hread⟩ := h.of_oneOf (List.cons_ne_nil _ _)
  simp only [List.mem_cons, List.not_mem_nil, or_false] at hq
  rcases hq with rfl | rfl | rfl
  · obtain rfl := hread.of_literal
    exact ⟨by decide, .inl hw⟩
  · obtain rfl := hread.of_literal
    exact ⟨by decide, .inr (.inl hw)⟩
  · obtain ⟨start, rest, r₁, rfl, hstart, hrest⟩ := hread.of_seq
    obtain ⟨spaces, sign, r₂, rfl, hspaces, hsign⟩ := hrest.of_seq
    obtain rfl := hsign.of_literal
    have hnil : start = [] := by
      cases hstart
      rfl
    have hreplicate : spaces = List.replicate spaces.length ' ' := by
      rw [List.eq_replicate_iff]
      exact ⟨rfl, fun c hc => beq_iff_eq.mp (hspaces.of_many_one c hc)⟩
    refine ⟨by simp, .inr (.inr ⟨spaces.length, ?_⟩)⟩
    rw [← hreplicate]
    rwa [hnil] at hw

theorem marks_comment :
    Marks BeginsComment [(num, line)]
      ((Layout.comment.search? line).map fun m => (⟨num, some (m.start.pos + 1)⟩ : Place)).toList := by
  intro p hp
  obtain ⟨m, hm, rfl⟩ := Option.map_eq_some_iff.mp (Option.mem_toList.mp hp)
  obtain ⟨u, v, rfl, hmatch⟩ := exists_amid_of_search? hm
  obtain ⟨hdrop, hpos, w, r', hw, hread⟩ := exists_reads_of_amid hmatch
  obtain ⟨hne, hbegins⟩ := beginsComment_of_reads hw hread
  exact mark_of_prefix hdrop hpos hw hne hbegins

/-- A line that breaks a word ends in a hyphen but for blanks. -/
theorem exists_of_brokenWord (h : Layout.brokenWord.occursIn (Text.trim line)) :
    ∃ t, Text.trimRight line = t ++ ['-'] := by
  obtain ⟨m, hm⟩ := Option.isSome_iff_exists.mp h
  obtain ⟨u, v, htrim, hmatch⟩ := exists_amid_of_search? hm
  obtain ⟨w, hread⟩ := reads_of_matchAt hmatch
  have hadvance := hread.advance.1
  obtain ⟨letters, rest, r₁, rfl, -, hrest⟩ := hread.of_seq
  obtain ⟨hyphen, stop, r₂, rfl, hhyphen, hstop⟩ := hrest.of_seq
  obtain rfl := hhyphen.of_literal
  obtain ⟨rfl, rfl, hend⟩ := hstop.of_lineEnd
  have hv : v = letters ++ '-' :: m.stop.rest := by
    simpa [Cursor.amid] using hadvance
  have hstop : m.stop.rest = [] := by
    refine hend.resolve_right fun hfeed => ?_
    have hlast : Text.trim line = u ++ letters ++ ['-'] ++ ['\n'] := by
      rw [htrim, hv, hfeed]
      simp
    have hblank := Text.not_isBlank_of_trim_eq hlast
    exact absurd hblank (by decide)
  obtain ⟨bs, hbs, hright⟩ := Text.exists_blanks_trimRight (Text.trimLeft line)
  rw [← Text.trim, htrim, hv, hstop] at hright
  have hline : line = line.takeWhile Text.isBlank ++ (u ++ letters) ++ '-' :: bs := by
    conv_lhs => rw [← List.takeWhile_append_dropWhile (p := Text.isBlank) (l := line), ← Text.trimLeft, hright]
    simp
  exact ⟨_, (congrArg Text.trimRight hline).trans (Text.trimRight_append_cons (by decide) hbs _)⟩

theorem marks_brokenWord (h : Layout.brokenWord.occursIn (Text.trim line)) :
    Marks IsLastHyphen [(num, line)] [⟨num, some (Text.trimRight line).length⟩] := by
  intro p hp
  obtain rfl := List.mem_singleton.mp hp
  obtain ⟨t, ht⟩ := exists_of_brokenWord h
  obtain ⟨bs, hbs, hline⟩ := Text.exists_blanks_trimRight line
  have hlength : (Text.trimRight line).length = t.length + 1 := by
    rw [ht, List.length_append, List.length_singleton]
  refine ⟨line, _, List.mem_singleton_self _, rfl, by omega, ?_, bs, ?_, hbs⟩
  · rw [congrArg List.length hline, List.length_append]
    exact Nat.le_add_right _ _
  · rw [hlength, Nat.add_sub_cancel]
    conv_lhs => rw [hline, ht, List.append_assoc, List.drop_left]
    rfl

theorem marks_lineEnd (h : Text.isVisible line) :
    Marks (fun _ => True) [(num, line)] [⟨num, some line.length⟩] := by
  intro p hp
  obtain rfl := List.mem_singleton.mp hp
  exact ⟨line, _, List.mem_singleton_self _, rfl, List.length_pos_iff.mpr (ne_nil_of_isVisible h),
    Nat.le_refl _, trivial⟩

end Line

namespace Items

section Line

variable (setting : Setting) (num : Nat) (line next : Text) (items : Items)

/-! What a line adds to the items with places. -/

theorem addReferences_places (t : Text) :
    (items.addReferences setting t).combinations = items.combinations ∧
      (items.addReferences setting t).wideLines = items.wideLines ∧
      (items.addReferences setting t).comments = items.comments ∧
      (items.addReferences setting t).brokenWords = items.brokenWords := by
  unfold addReferences
  split_ifs <;> exact ⟨rfl, rfl, rfl, rfl⟩

theorem exists_combinations_addLine :
    ∃ new, (items.addLine setting num line (Text.trim line) next).combinations.map (·.2) =
      items.combinations.map (·.2) ++ new ∧ Marks BeginsCombination [(num, line)] new := by
  refine ⟨_, ?_, marks_combinations⟩
  rw [← (addReferences_places setting items (Text.trim line)).1]
  simp [addLine, addLayout, addWords, Function.comp_def]

theorem exists_wideLines_addLine (hl : Text.isVisible line) :
    ∃ new, (items.addLine setting num line (Text.trim line) next).wideLines = items.wideLines ++ new ∧
      Marks (fun _ => True) [(num, line)] new ∧ new.length ≤ 1 := by
  rw [← (addReferences_places setting items (Text.trim line)).2.1]
  refine ⟨_, rfl, ?_⟩
  split_ifs
  · exact ⟨marks_lineEnd hl, Nat.le_refl 1⟩
  · exact ⟨marks_nil, Nat.zero_le 1⟩

theorem exists_comments_addLine :
    ∃ new, (items.addLine setting num line (Text.trim line) next).comments = items.comments ++ new ∧
      Marks BeginsComment [(num, line)] new ∧ new.length ≤ 1 := by
  rw [← (addReferences_places setting items (Text.trim line)).2.2.1]
  refine ⟨_, rfl, ?_, Option.length_toList_le⟩
  split_ifs
  · exact marks_comment
  · exact marks_nil

theorem exists_brokenWords_addLine :
    ∃ new, (items.addLine setting num line (Text.trim line) next).brokenWords = items.brokenWords ++ new ∧
      Marks IsLastHyphen [(num, line)] new ∧ new.length ≤ 1 := by
  rw [← (addReferences_places setting items (Text.trim line)).2.2.2]
  refine ⟨_, rfl, ?_⟩
  split_ifs with hbroken
  · simp only [Bool.and_eq_true] at hbroken
    exact ⟨marks_brokenWord hbroken.1.2, Nat.le_refl 1⟩
  · exact ⟨marks_nil, Nat.zero_le 1⟩

end Line

end Items

/-- The places noted lie on these lines, those of bad layout on one line after the other. -/
structure Items.Placed (lines : List (Nat × Text)) (items : Items) : Prop where
  combinations : Marks BeginsCombination lines (items.combinations.map (·.2))
  wideLines : MarksInTurn (fun _ => True) lines items.wideLines
  comments : MarksInTurn BeginsComment lines items.comments
  brokenWords : MarksInTurn IsLastHyphen lines items.brokenWords

namespace Items.Placed

variable {n : Nat} {lines : List (Nat × Text)} {items : Items} {line : Text}

theorem empty : Placed [] Items.empty :=
  ⟨marks_nil, marksInTurn_nil, marksInTurn_nil, marksInTurn_nil⟩

/-- A line without items. -/
theorem more (h : Placed lines items) (l : Nat × Text) : Placed (lines ++ [l]) items :=
  ⟨h.combinations.more l, h.wideLines.more l, h.comments.more l, h.brokenWords.more l⟩

/-- The items of a line that can be seen. -/
theorem addLine (h : Placed lines items) (hb : Text.Below n lines) (hl : Text.isVisible line)
    (setting : Setting) (next : Text) :
    Placed (lines ++ [(n + 1, line)]) (items.addLine setting (n + 1) line (Text.trim line) next) := by
  refine ⟨?_, ?_, ?_, ?_⟩
  · obtain ⟨new, hnew, hmarks⟩ := exists_combinations_addLine setting (n + 1) line next items
    rw [hnew]
    exact h.combinations.concat hmarks
  · obtain ⟨new, hnew, hmarks, hone⟩ := exists_wideLines_addLine setting (n + 1) line next items hl
    rw [hnew]
    exact h.wideLines.concat hb hmarks hone
  · obtain ⟨new, hnew, hmarks, hone⟩ := exists_comments_addLine setting (n + 1) line next items
    rw [hnew]
    exact h.comments.concat hb hmarks hone
  · obtain ⟨new, hnew, hmarks, hone⟩ := exists_brokenWords_addLine setting (n + 1) line next items
    rw [hnew]
    exact h.brokenWords.concat hb hmarks hone

end Items.Placed

theorem Scan.Reached.placed {ls : List Text} {s : Scan} (h : Reached ls s) :
    s.items.Placed (Text.numberFrom 1 ls) := by
  refine h.overLines (motive := fun lines s => s.items.Placed lines) Items.Placed.empty ?_
  intro ls s h hb ih line next
  rw [items_readLine _ line next h.fronted.part_ne_header]
  split_ifs with hl
  · exact ih.addLine hb hl _ next
  · exact ih.more (ls.length + 1, line)

theorem Document.placed_ofText (fileName : Option Text) (t : Text) :
    (ofText fileName t).scan.items.Placed (ofText fileName t).lines := by
  rw [items_ofText]
  exact (Scan.Reached.readLines (Text.lines (prepare t))).placed

end Plain
end DraftLint
