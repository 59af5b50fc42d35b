import DraftLint.Proofs.Pattern.Occurrence
import DraftLint.Proofs.Plain.Places
import DraftLint.Proofs.Text.Case
import Mathlib.Data.List.Nodup

/-!
# Comments and code blocks

Whether a code block is open is settled once for each line, before the line is searched for a comment: it is closed if
a mark on the line closes one, wherever that stands on the line, and otherwise open if a mark on it opens one.  So
comments are found outside code blocks as long as marks stand on lines of their own.  Beside a mark, and after a line
with marks of both kinds, they need not be.
-/

namespace DraftLint

namespace Layout

open Pattern

/-- Every way of such a mark begins and ends in a bracket. -/
theorem tight_mark (cs : List Char) :
    Tight ((('<' :: cs) ++ ['>']).map fun c => (CharSet.only c).ignoreCase) := by
  have hfirst : ∀ c, Text.isBlank c → (CharSet.only '<').ignoreCase c = false := fun c hc =>
    Text.forall_blank (p := fun c => (CharSet.only '<').ignoreCase c = false) (by decide) hc
  have hlast : ∀ c, Text.isBlank c → (CharSet.only '>').ignoreCase c = false := fun c hc =>
    Text.forall_blank (p := fun c => (CharSet.only '>').ignoreCase c = false) (by decide) hc
  refine ⟨List.cons_ne_nil _ _, ?_, ?_⟩
  · rintro s ⟨⟩
    exact hfirst
  · intro s hs
    rw [List.map_append, List.map_singleton, List.getLast?_concat] at hs
    obtain rfl := Option.some.inj hs
    exact hlast

theorem codeBegins_trim (line : Text) : codeBegins.occursIn (Text.trim line) = codeBegins.occursIn line := by
  refine occursIn_trim (bounded_literal _).ignoreCase (fun row hrow => ?_) line
  obtain rfl := List.mem_singleton.mp hrow
  exact tight_mark "CODE BEGINS".toList

theorem codeEnds_trim (line : Text) : codeEnds.occursIn (Text.trim line) = codeEnds.occursIn line := by
  refine occursIn_trim (bounded_literal _).ignoreCase (fun row hrow => ?_) line
  obtain rfl := List.mem_singleton.mp hrow
  exact tight_mark "CODE ENDS".toList

end Layout

namespace Plain

open Pattern

section Marks

/-- A mark that opens or closes a code block, and the number of characters in front of it. -/
structure CodeMark where
  line : Nat
  offset : Nat
  opens : Bool

/-- The marks of code blocks on a line, from the left. -/
def codeMarksOn (num : Nat) (line : Text) : List CodeMark :=
  (List.range (line.length + 1)).filterMap fun k =>
    if Layout.codeBegins.matchesAt line k then some ⟨num, k, true⟩
    else if Layout.codeEnds.matchesAt line k then some ⟨num, k, false⟩
    else none

/-- The marks of code blocks on the visible lines, in reading order. -/
def codeMarks (lines : List (Nat × Text)) : List CodeMark :=
  lines.flatMap fun l => if Text.isVisible l.2 then codeMarksOn l.1 l.2 else []

/-- The mark stands in front of the place. -/
def CodeMark.precedes (m : CodeMark) (num offset : Nat) : Bool :=
  m.line < num || (m.line == num && m.offset < offset)

/-- The last mark in front of the place opens a code block. -/
def insideCode (lines : List (Nat × Text)) (num offset : Nat) : Bool :=
  ((codeMarks lines).filter (·.precedes num offset)).getLast?.any (·.opens)

/-- A mark of a code block stands on the line. -/
def hasCodeMark (line : Text) : Bool :=
  Layout.codeBegins.occursIn line || Layout.codeEnds.occursIn line

/-- The last of the visible lines with marks has none that closes a block. -/
def leavesCodeOpen (lines : List (Nat × Text)) : Bool :=
  (lines.filter fun l => Text.isVisible l.2 && hasCodeMark l.2).getLast?.any fun l => !Layout.codeEnds.occursIn l.2

variable {lines : List (Nat × Text)} {l : Nat × Text} {n num k : Nat} {line next : Text}

/-- A line is taken into account as it is while lines are read. -/
theorem leavesCodeOpen_concat (lines : List (Nat × Text)) (l : Nat × Text) :
    leavesCodeOpen (lines ++ [l]) =
      if Text.isVisible l.2 then Items.codeAfter (leavesCodeOpen lines) (Text.trim l.2) else leavesCodeOpen lines := by
  rw [leavesCodeOpen, List.filter_append, List.filter_singleton, Items.codeAfter, Layout.codeBegins_trim,
    Layout.codeEnds_trim, hasCodeMark]
  cases Text.isVisible l.2
  · rw [Bool.false_and, cond_false, List.append_nil, if_neg Bool.false_ne_true, leavesCodeOpen]
  · cases hends : Layout.codeEnds.occursIn l.2 <;> cases hbegins : Layout.codeBegins.occursIn l.2 <;>
      simp [leavesCodeOpen, hends]

end Marks

section Noting

/-- The first comment on a line. -/
def firstComment? (l : Nat × Text) : Option Place :=
  (Layout.comment.offsets l.2).head?.map fun k => ⟨l.1, some (k + 1)⟩

/-- The first comment on a visible line that leaves no code block open. -/
def notedComment? (lines : List (Nat × Text)) (l : Nat × Text) : Option Place :=
  if Text.isVisible l.2 && !leavesCodeOpen (linesBefore (l.1 + 1) lines) then firstComment? l else none

variable {lines : List (Nat × Text)} {l : Nat × Text} {n num k : Nat} {line next : Text} {s : Scan} {p : Place}

theorem line_of_notedComment? (h : notedComment? lines l = some p) : p.line = l.1 := by
  unfold notedComment? at h
  split_ifs at h
  obtain ⟨k, -, rfl⟩ := Option.map_eq_some_iff.mp h
  rfl

/-- What is noted on a line does not depend on the lines after it. -/
theorem filterMap_notedComment?_concat (hb : Text.Below n lines) (line : Text) :
    (lines ++ [(n + 1, line)]).filterMap (notedComment? (lines ++ [(n + 1, line)])) =
      lines.filterMap (notedComment? lines) ++ (notedComment? (lines ++ [(n + 1, line)]) (n + 1, line)).toList := by
  rw [List.filterMap_append]
  congr 1
  refine List.filterMap_congr fun l hl => ?_
  rw [notedComment?, notedComment?, linesBefore_concat lines line (Nat.succ_le_succ (hb l hl))]

/-- A comment is searched for outside code blocks only, as they are after the line. -/
theorem Items.comments_addLine (setting : Setting) (num : Nat) (line next : Text) (items : Items) :
    (items.addLine setting num line (Text.trim line) next).comments = items.comments ++
      (if !codeAfter setting.inCode (Text.trim line) then firstComment? (num, line) else none).toList := by
  rw [firstComment?, ← start_of_search?, Option.map_map, ← (addReferences_places setting items (Text.trim line)).2.2.1]
  simp only [addLine, addLayout]
  cases codeAfter setting.inCode (Text.trim line) <;> rfl

theorem Scan.Reached.comments {ls : List Text} (h : Reached ls s) :
    s.inCode = leavesCodeOpen (Text.numberFrom 1 ls) ∧
      s.items.comments = (Text.numberFrom 1 ls).filterMap (notedComment? (Text.numberFrom 1 ls)) := by
  refine h.overLines (motive := fun lines s =>
    s.inCode = leavesCodeOpen lines ∧ s.items.comments = lines.filterMap (notedComment? lines)) ⟨rfl, rfl⟩ ?_
  intro ls s h hb ih line next
  obtain ⟨hopen, hcomments⟩ := ih
  have hconcat := leavesCodeOpen_concat (Text.numberFrom 1 ls) (ls.length + 1, line)
  rw [inCode_readLine _ line next h.fronted.part_ne_header, hconcat, hopen]
  refine ⟨rfl, ?_⟩
  rw [filterMap_notedComment?_concat hb, ← hcomments, notedComment?,
    linesBefore_of_lt (hb.concat line) (Nat.lt_succ_self _), hconcat,
    items_readLine _ line next h.fronted.part_ne_header]
  cases Text.isVisible line
  · simp
  · have hadd := s.items.comments_addLine s.setting (ls.length + 1) line next
    have hin : s.setting.inCode = leavesCodeOpen (Text.numberFrom 1 ls) := hopen
    rw [hin] at hadd
    exact hadd

theorem InOrder.eq_of_fst_eq {l' : Nat × Text} (h : InOrder lines) (hl : l ∈ lines) (hl' : l' ∈ lines)
    (heq : l.1 = l'.1) : l = l' := by
  have hnodup : (lines.map Prod.fst).Nodup := List.pairwise_map.mpr (h.imp Nat.ne_of_lt)
  exact List.inj_on_of_nodup_map hnodup hl hl' heq

/-- Of the places noted on lines in order, those on one line are the ones that were noted there. -/
theorem filter_filterMap_of_inOrder {note : Nat × Text → Option Place}
    (hnote : ∀ l p, note l = some p → p.line = l.1) (horder : InOrder lines) (hl : l ∈ lines) :
    (lines.filterMap note).filter (·.line == l.1) = (note l).toList := by
  have hapart : ∀ others : List (Nat × Text), (∀ l' ∈ others, l'.1 ≠ l.1) →
      (others.filterMap note).filter (·.line == l.1) = [] := by
    intro others hothers
    rw [List.filter_eq_nil_iff]
    intro p hp
    obtain ⟨l', hl', hp⟩ := List.mem_filterMap.mp hp
    rw [hnote l' p hp, beq_iff_eq]
    exact hothers l' hl'
  obtain ⟨front, behind, rfl⟩ := List.append_of_mem hl
  obtain ⟨-, horder, hfront⟩ := List.pairwise_append.mp horder
  have hbehind := (List.pairwise_cons.mp horder).1
  rw [← List.singleton_append, List.filterMap_append, List.filterMap_append, List.filter_append, List.filter_append,
    hapart front fun l' hl' => Nat.ne_of_lt (hfront l' hl' l List.mem_cons_self),
    hapart behind fun l' hl' => Nat.ne_of_gt (hbehind l' hl'), List.nil_append, List.append_nil]
  cases hp : note l with
  | none => simp [hp]
  | some p => simp [hp, hnote l p hp]

end Noting

section Outside

variable {lines : List (Nat × Text)} {l : Nat × Text} {num k : Nat}

/-- Comments are noted exactly outside code blocks: no noted place is inside one, and the first comment outside them on
a visible line is noted, and nothing else on that line. -/
structure NotesOutsideCode (lines : List (Nat × Text)) (noted : List Place) : Prop where
  outside : ∀ p ∈ noted, ∀ k, p.column = some (k + 1) → insideCode lines p.line k = false
  once : ∀ l ∈ lines, Text.isVisible l.2 →
    ∀ k ∈ (Layout.comment.offsets l.2).find? fun k => !insideCode lines l.1 k,
      noted.filter (·.line == l.1) = [⟨l.1, some (k + 1)⟩]

/-- On each visible line the comments are where they are taken to be: all inside a code block if one is open after the
line, and otherwise the first one outside. -/
def CodeBlocksByLine (lines : List (Nat × Text)) : Prop :=
  ∀ l ∈ lines, Text.isVisible l.2 →
    if leavesCodeOpen (linesBefore (l.1 + 1) lines) then ∀ k ∈ Layout.comment.offsets l.2, insideCode lines l.1 k
    else ∀ k ∈ (Layout.comment.offsets l.2).head?, insideCode lines l.1 k = false

theorem notesOutsideCode_iff (horder : InOrder lines) :
    NotesOutsideCode lines (lines.filterMap (notedComment? lines)) ↔ CodeBlocksByLine lines := by
  have hline : ∀ l p, notedComment? lines l = some p → p.line = l.1 := fun _ _ => line_of_notedComment?
  have hfilter : ∀ l ∈ lines, _ := fun l hl => filter_filterMap_of_inOrder hline horder hl
  constructor
  · intro h l hl hvisible
    have hnoted := hfilter l hl
    rw [notedComment?, hvisible, Bool.true_and] at hnoted
    split_ifs with hopen
    · intro k hk
      by_contra hinside
      have hsome : ((Layout.comment.offsets l.2).find? fun k => !insideCode lines l.1 k).isSome := by
        rw [List.find?_isSome]
        exact ⟨k, hk, by simpa using hinside⟩
      obtain ⟨k', hk'⟩ := Option.isSome_iff_exists.mp hsome
      rw [h.once l hl hvisible k' hk', hopen] at hnoted
      cases hnoted
    · intro k hk
      have hmem : (⟨l.1, some (k + 1)⟩ : Place) ∈ lines.filterMap (notedComment? lines) := by
        refine List.mem_filterMap.mpr ⟨l, hl, ?_⟩
        rw [notedComment?, hvisible, Bool.true_and, if_pos (by simpa using hopen), firstComment?, hk, Option.map_some]
      exact h.outside _ hmem k rfl
  · intro h
    refine ⟨?_, ?_⟩
    · intro p hp k hk
      obtain ⟨l, hl, hnote⟩ := List.mem_filterMap.mp hp
      rw [notedComment?] at hnote
      split_ifs at hnote with hclosed
      obtain ⟨hvisible, hopen⟩ := Bool.and_eq_true_iff.mp hclosed
      obtain ⟨k', hk', rfl⟩ := Option.map_eq_some_iff.mp hnote
      obtain rfl : k' = k := Nat.succ.inj (Option.some.inj hk)
      have hline := h l hl hvisible
      rw [if_neg (by simpa using hopen)] at hline
      exact hline k' hk'
    · intro l hl hvisible k hk
      have hline := h l hl hvisible
      rw [hfilter l hl, notedComment?, hvisible, Bool.true_and]
      split_ifs at hline with hopen
      · have hinside := hline k (List.mem_of_find?_eq_some hk)
        have houtside := List.find?_some hk
        rw [hinside] at houtside
        cases houtside
      · obtain ⟨k', rest, hoffsets⟩ := List.exists_cons_of_ne_nil (List.ne_nil_of_mem (List.mem_of_find?_eq_some hk))
        have hfirst := hline k' (by rw [hoffsets]; rfl)
        rw [hoffsets, List.find?_cons_of_pos (by rw [hfirst, Bool.not_false])] at hk
        obtain rfl := Option.some.inj hk
        rw [if_pos (by simpa using hopen), firstComment?, hoffsets]
        rfl

end Outside

section Apart

variable {lines : List (Nat × Text)} {l : Nat × Text} {num k : Nat} {line : Text} {m : CodeMark}

/-- A line with a mark of a code block has none of the other kind, and no comments. -/
def MarksApart (lines : List (Nat × Text)) : Prop :=
  ∀ l ∈ lines, Text.isVisible l.2 → hasCodeMark l.2 →
    ¬(Layout.codeBegins.occursIn l.2 ∧ Layout.codeEnds.occursIn l.2) ∧ Layout.comment.offsets l.2 = []

theorem mem_codeMarksOn (h : m ∈ codeMarksOn num line) : m.line = num ∧
    if m.opens then Layout.codeBegins.occursIn line else Layout.codeEnds.occursIn line := by
  obtain ⟨k, hk, hm⟩ := List.mem_filterMap.mp h
  have hle : k ≤ line.length := Nat.lt_succ_iff.mp (List.mem_range.mp hk)
  have hoccurs : ∀ p : Pattern, p.matchesAt line k → p.occursIn line := fun p hp =>
    occursIn_iff_offsets.mpr (List.ne_nil_of_mem (mem_offsets.mpr ⟨hle, hp⟩))
  split_ifs at hm with hbegins hends
  · obtain rfl := Option.some.inj hm
    exact ⟨rfl, hoccurs _ hbegins⟩
  · obtain rfl := Option.some.inj hm
    exact ⟨rfl, hoccurs _ hends⟩

theorem codeMarksOn_eq_nil_iff : codeMarksOn num line = [] ↔ hasCodeMark line = false := by
  constructor
  · rw [Bool.eq_false_iff, hasCodeMark, ne_eq, Bool.or_eq_true, occursIn_iff_offsets, occursIn_iff_offsets]
    intro hnil hmarked
    have hmark : ∃ k ≤ line.length, Layout.codeBegins.matchesAt line k ∨ Layout.codeEnds.matchesAt line k := by
      rcases hmarked with h | h <;> obtain ⟨k, hk⟩ := List.exists_mem_of_ne_nil _ h
      · exact ⟨k, (mem_offsets.mp hk).1, .inl (mem_offsets.mp hk).2⟩
      · exact ⟨k, (mem_offsets.mp hk).1, .inr (mem_offsets.mp hk).2⟩
    obtain ⟨k, hle, hmark⟩ := hmark
    have hnone := List.filterMap_eq_nil_iff.mp hnil k (List.mem_range.mpr (Nat.lt_succ_of_le hle))
    split_ifs at hnone with hbegins hends
    exact hmark.elim hbegins hends
  · intro hunmarked
    rw [hasCodeMark, Bool.or_eq_false_iff] at hunmarked
    rw [List.eq_nil_iff_forall_not_mem]
    intro m hm
    have hkind := (mem_codeMarksOn hm).2
    rw [hunmarked.1, hunmarked.2, ite_self] at hkind
    cases hkind

theorem codeMarks_append (lines lines' : List (Nat × Text)) :
    codeMarks (lines ++ lines') = codeMarks lines ++ codeMarks lines' :=
  List.flatMap_append

theorem codeMarks_singleton (l : Nat × Text) :
    codeMarks [l] = if Text.isVisible l.2 then codeMarksOn l.1 l.2 else [] :=
  List.flatMap_singleton _ _

theorem exists_line_of_mem_codeMarks (h : m ∈ codeMarks lines) :
    ∃ l ∈ lines, m.line = l.1 ∧ hasCodeMark l.2 := by
  obtain ⟨l, hl, hm⟩ := List.mem_flatMap.mp h
  split_ifs at hm
  · refine ⟨l, hl, (mem_codeMarksOn hm).1, ?_⟩
    by_contra hunmarked
    rw [codeMarksOn_eq_nil_iff.mpr (by simpa using hunmarked)] at hm
    cases hm
  · cases hm

/-- The marks on the lines in front of a line. -/
theorem codeMarks_linesBefore (num : Nat) (lines : List (Nat × Text)) :
    codeMarks (linesBefore num lines) = (codeMarks lines).filter (·.line < num) := by
  induction lines with
  | nil => rfl
  | cons l lines ih =>
    have hline : ∀ m ∈ codeMarks [l], m.line = l.1 := by
      intro m hm
      obtain ⟨l', hl', hline, -⟩ := exists_line_of_mem_codeMarks hm
      rwa [List.mem_singleton.mp hl'] at hline
    have hcons : codeMarks (l :: lines) = codeMarks [l] ++ codeMarks lines := codeMarks_append [l] lines
    rw [hcons, List.filter_append, ← ih, linesBefore]
    by_cases hl : l.1 < num
    · have hself : (codeMarks [l]).filter (·.line < num) = codeMarks [l] := by
        rw [List.filter_eq_self]
        intro m hm
        simpa [hline m hm] using hl
      rw [List.filter_cons_of_pos (by simpa using hl), hself]
      exact codeMarks_append [l] (linesBefore num lines)
    · have hnil : (codeMarks [l]).filter (·.line < num) = [] := by
        rw [List.filter_eq_nil_iff]
        intro m hm
        simpa [hline m hm] using hl
      rw [List.filter_cons_of_neg (by simpa using hl), hnil, List.nil_append]
      rfl

/-- As long as marks of both kinds do not share a line, the last mark tells whether a block is open. -/
theorem MarksApart.leavesCodeOpen_eq (h : MarksApart lines) :
    leavesCodeOpen lines = (codeMarks lines).getLast?.any (·.opens) := by
  induction lines using List.reverseRecOn with
  | nil => rfl
  | append_singleton lines l ih =>
    have hlines := ih fun l' hl' => h l' (List.mem_append_left _ hl')
    have hl := h l (List.mem_append_right _ (List.mem_singleton_self l))
    rw [leavesCodeOpen_concat, codeMarks_append, hlines, codeMarks_singleton]
    split_ifs with hvisible
    · by_cases hmarked : hasCodeMark l.2 = true
      · have hne : codeMarksOn l.1 l.2 ≠ [] := by
          rw [ne_eq, codeMarksOn_eq_nil_iff, hmarked]
          exact Bool.noConfusion
        obtain ⟨front, m, hm⟩ := (List.eq_nil_or_concat' _).resolve_left hne
        have hkind := (mem_codeMarksOn (hm ▸ List.mem_append_right front (List.mem_singleton_self m))).2
        have hone := (hl hvisible hmarked).1
        rw [hm, ← List.append_assoc, List.getLast?_concat, Option.any_some, Items.codeAfter, Layout.codeBegins_trim,
          Layout.codeEnds_trim]
        split_ifs at hkind with hopens
        · rw [hkind, hopens, Bool.or_true, Bool.true_and, Bool.not_eq_true', Bool.eq_false_iff]
          exact fun hends => hone ⟨hkind, hends⟩
        · rw [hkind, Bool.not_true, Bool.and_false, eq_comm, Bool.eq_false_iff]
          exact hopens
      · rw [Bool.not_eq_true] at hmarked
        have hnil : codeMarksOn l.1 l.2 = [] := codeMarksOn_eq_nil_iff.mpr hmarked
        rw [hasCodeMark, Bool.or_eq_false_iff] at hmarked
        rw [hnil, List.append_nil, Items.codeAfter, Layout.codeBegins_trim, Layout.codeEnds_trim, hmarked.1, hmarked.2,
          Bool.or_false, Bool.not_false, Bool.and_true]
    · rw [List.append_nil]

theorem MarksApart.codeBlocksByLine (h : MarksApart lines) (horder : InOrder lines) : CodeBlocksByLine lines := by
  intro l hl hvisible
  by_cases hmarked : hasCodeMark l.2 = true
  · rw [(h l hl hvisible hmarked).2]
    split_ifs
    · exact List.forall_mem_nil _
    · rintro _ ⟨⟩
  · have hbefore : MarksApart (linesBefore (l.1 + 1) lines) := fun l' hl' => h l' (mem_linesBefore.mp hl').1
    have hinside : ∀ k, insideCode lines l.1 k = leavesCodeOpen (linesBefore (l.1 + 1) lines) := by
      intro k
      rw [hbefore.leavesCodeOpen_eq, codeMarks_linesBefore, insideCode]
      congr 2
      refine List.filter_congr fun m hm => ?_
      have hne : m.line ≠ l.1 := by
        obtain ⟨l', hl', hline, hmark⟩ := exists_line_of_mem_codeMarks hm
        intro heq
        rw [horder.eq_of_fst_eq hl' hl (hline.symm.trans heq)] at hmark
        exact hmarked hmark
      rw [CodeMark.precedes, beq_eq_false_iff_ne.mpr hne, Bool.false_and, Bool.or_false, decide_eq_decide]
      omega
    split_ifs with hopen
    · exact fun k _ => (hinside k).trans hopen
    · exact fun k _ => (hinside k).trans (Bool.eq_false_iff.mpr hopen)

end Apart

namespace Document

section Comments

variable (fileName : Option Text) (t : Text)

/-- The comments noted in a document are the first ones on its visible lines after which no code block is open. -/
theorem comments_eq_filterMap :
    (ofText fileName t).scan.items.comments =
      (ofText fileName t).lines.filterMap (notedComment? (ofText fileName t).lines) := by
  rw [items_ofText]
  exact (Scan.Reached.readLines (Text.lines (prepare t))).comments.2

/-- Marks on lines of their own divide comments as they should. -/
theorem notesOutsideCode_of_marksApart (h : MarksApart (ofText fileName t).lines) :
    NotesOutsideCode (ofText fileName t).lines (ofText fileName t).scan.items.comments := by
  have horder := inOrder_numberFrom 1 (Text.lines (prepare t))
  rw [comments_eq_filterMap]
  exact (notesOutsideCode_iff horder).mpr (h.codeBlocksByLine horder)

/-- The comments of any text.  They are the first ones outside code blocks exactly if on each line the comments are
where they are taken to be. -/
theorem comments_ofText :
    (ofText fileName t).scan.items.comments =
        (ofText fileName t).lines.filterMap (notedComment? (ofText fileName t).lines) ∧
      (NotesOutsideCode (ofText fileName t).lines (ofText fileName t).scan.items.comments ↔
        CodeBlocksByLine (ofText fileName t).lines) := by
  refine ⟨comments_eq_filterMap fileName t, ?_⟩
  rw [comments_eq_filterMap]
  exact notesOutsideCode_iff (inOrder_numberFrom 1 _)

end Comments

/-- A line that closes one code block and opens another leaves none open: a comment inside the second is noted. -/
theorem not_notesOutsideCode :
    ¬NotesOutsideCode (ofText none "<CODE ENDS> <CODE BEGINS>\n/* a */\n".toList).lines
      (ofText none "<CODE ENDS> <CODE BEGINS>\n/* a */\n".toList).scan.items.comments := by
  intro h
  have hnoted : (⟨2, some 1⟩ : Place) ∈
      (ofText none "<CODE ENDS> <CODE BEGINS>\n/* a */\n".toList).scan.items.comments := by decide +kernel
  have hinside : insideCode (ofText none "<CODE ENDS> <CODE BEGINS>\n/* a */\n".toList).lines 2 0 = true := by
    decide +kernel
  rw [h.outside _ hnoted 0 rfl] at hinside
  cases hinside

end Document
end Plain
end DraftLint
