import DraftLint.Proofs.Text.LineEnds
import DraftLint.Text.Wrap
import Mathlib.Tactic.Set

/-!
# Filled paragraphs

Filling a paragraph sets, moves and drops blanks.  No other character is lost, added or moved, however long the words are,
as long as there is room for one character behind the indentation.
-/

namespace DraftLint.Text

section Ink

variable {c : Char} {sep s t : Text}

/-- The characters that are not blank. -/
def ink (t : Text) : Text :=
  t.filter fun c => !isBlank c

theorem ink_append (s t : Text) : ink (s ++ t) = ink s ++ ink t :=
  List.filter_append ..

theorem ink_flatten (ts : List Text) : ink ts.flatten = (ts.map ink).flatten :=
  List.filter_flatten

theorem ink_cons_of_isBlank (h : isBlank c) (t : Text) : ink (c :: t) = ink t :=
  List.filter_cons_of_neg (by rw [h]; exact Bool.false_ne_true)

theorem ink_cons_congr (h : ink s = ink t) (c : Char) : ink (c :: s) = ink (c :: t) := by
  rw [← List.singleton_append, ink_append, h, ← ink_append, List.singleton_append]

theorem ink_eq_nil (h : ∀ c ∈ t, isBlank c) : ink t = [] := by
  rw [ink, List.filter_eq_nil_iff]
  intro c hc
  rw [h c hc]
  exact Bool.false_ne_true

/-- A separator of blanks adds nothing. -/
theorem ink_join (hsep : ∀ c ∈ sep, isBlank c) (ts : List Text) : ink (join sep ts) = ink ts.flatten := by
  induction ts with
  | nil => rfl
  | cons t ts ih =>
    cases ts with
    | nil => rw [join, List.intercalate_singleton, List.flatten_singleton]
    | cons u us =>
      rw [join, List.intercalate_cons_cons, ← join, ink_append, ink_append, ink_eq_nil hsep, List.append_nil, ih,
        ← ink_append]
      rfl

theorem ink_expandTabsFrom (col : Nat) (t : Text) : ink (expandTabsFrom col t) = ink t := by
  have hspaces : ∀ n, ink (List.replicate n ' ') = [] := fun n =>
    ink_eq_nil fun c hc => (List.eq_of_mem_replicate hc) ▸ rfl
  fun_induction expandTabsFrom col t with
  | case1 => rfl
  | case2 col t width ih => rw [ink_append, hspaces, List.nil_append, ih, ink_cons_of_isBlank rfl]
  | case3 col c t _ _ ih | case4 col c t _ _ ih => exact ink_cons_congr ih c

end Ink

namespace Wrap

variable {width fuel : Nat} {indent : Text} {room : Int} {cs : List Text}

theorem isBlank_of_breaking {c : Char} (h : breaking c) : isBlank c := by
  have hmem : ∀ c ∈ "\t\n\x0b\x0c\r ".toList, isBlank c := by decide
  exact hmem c (List.contains_iff_mem.mp h)

theorem ink_plainBlanks (t : Text) : ink (plainBlanks t) = ink t := by
  have hmap : ∀ s : Text, ink (s.map fun c => if breaking c then ' ' else c) = ink s := by
    intro s
    induction s with
    | nil => rfl
    | cons c s ih =>
      rw [List.map_cons]
      split_ifs with hbreaking
      · rw [ink_cons_of_isBlank rfl, ink_cons_of_isBlank (isBlank_of_breaking hbreaking), ih]
      · exact ink_cons_congr ih c
  rw [plainBlanks, hmap]
  exact ink_expandTabsFrom 0 t

/-- Nothing is lost between the pieces, wherever they begin and end. -/
theorem flatten_cutAt (skip pos : Nat) (piece : Text) (ms : List Match) (t : Text) :
    (cutAt skip pos piece ms t).flatten = piece.reverse ++ t := by
  fun_induction cutAt skip pos piece ms t with
  | case1 => exact List.flatten_singleton.trans (List.append_nil _).symm
  | case2 _ _ _ _ _ ih =>
    rw [List.flatten_cons, ih, List.reverse_cons, List.append_assoc]
    rfl
  | case3 _ _ _ _ _ _ _ ih | case4 _ _ _ _ ih | case7 _ _ _ _ _ _ _ ih =>
    rw [ih, List.reverse_cons, List.append_assoc]
    rfl
  | case5 _ _ _ _ _ _ _ ih =>
    rw [List.flatten_cons, List.flatten_cons, ih]
    rfl
  | case6 _ _ _ _ _ _ _ ih =>
    rw [List.flatten_cons, ih]
    rfl

theorem flatten_chunks (t : Text) : (chunks t).flatten = t := by
  rw [chunks, List.flatten_filter_not_isEmpty, flatten_cutAt]
  rfl

theorem takeFitting_append (room : Int) (cs : List Text) : (takeFitting room cs).1 ++ (takeFitting room cs).2 = cs := by
  induction cs generalizing room with
  | nil => rfl
  | cons c cs ih =>
    rw [takeFitting]
    split_ifs
    · exact congrArg (c :: ·) (ih _)
    · rfl

theorem breakPoint_pos {room : Nat} (h : 0 < room) (c : Text) : 0 < breakPoint room c := by
  rw [breakPoint]
  split_ifs
  · cases lastHyphen? (c.take room) with
    | none => exact h
    | some i =>
      dsimp only
      split_ifs
      · exact Nat.succ_pos i
      · exact h
  · exact h

theorem ink_dropLastBlank (cs : List Text) : ink (dropLastBlank cs).flatten = ink cs.flatten := by
  rw [dropLastBlank]
  cases hlast : cs.getLast? with
  | none =>
    rw [List.getLast?_eq_none_iff.mp hlast]
  | some c =>
    dsimp only
    split_ifs with hblank
    · obtain ⟨front, rfl⟩ := List.getLast?_eq_some_iff.mp hlast
      have hc : ink c = [] := ink_eq_nil (List.all_eq_true.mp hblank)
      rw [List.dropLast_concat, List.flatten_append, ink_append, List.flatten_singleton, hc, List.append_nil]
    · rfl

/-- What goes on a line with this room, a part of a chunk that is too long for any line included, and what is left. -/
def share (room : Int) (cs : List Text) : List Text × List Text :=
  let (taken, left) := takeFitting room cs
  match left with
  | [] => (taken, [])
  | d :: ds =>
    if (d.length : Int) > room then
      let used := taken.flatten.length
      let cut := breakPoint (if room < 1 then 1 else room.toNat - used) d
      (taken ++ [d.take cut], d.drop cut :: ds)
    else (taken, d :: ds)

/-- A line takes its share of the chunks, but for a blank one in front. -/
theorem layOut_cons (width : Nat) (indent : Text) (fuel : Nat) (started : Bool) (c : Text) (cs : List Text) :
    layOut width indent (fuel + 1) started (c :: cs) =
      let lead := if started then indent else []
      let row := share (width - lead.length) (if started && isBlankChunk c then cs else c :: cs)
      match dropLastBlank row.1 with
      | [] => layOut width indent fuel started row.2
      | line => (lead ++ line.flatten) :: layOut width indent fuel true row.2 :=
  rfl

theorem share_cases (room : Int) (cs : List Text) :
    share room cs = takeFitting room cs ∨
      ∃ taken d ds cut, takeFitting room cs = (taken, d :: ds) ∧
        share room cs = (taken ++ [d.take cut], d.drop cut :: ds) := by
  rw [share]
  obtain ⟨taken, left⟩ := takeFitting room cs
  cases left with
  | nil => exact .inl rfl
  | cons d ds =>
    by_cases hlong : (d.length : Int) > room
    · exact .inr ⟨taken, d, ds, _, rfl, if_pos hlong⟩
    · exact .inl (if_neg hlong)

theorem share_flatten (room : Int) (cs : List Text) :
    (share room cs).1.flatten ++ (share room cs).2.flatten = cs.flatten := by
  have happend := takeFitting_append room cs
  obtain hshare | ⟨taken, d, ds, cut, hfitting, hshare⟩ := share_cases room cs
  · rw [hshare, ← List.flatten_append, happend]
  · rw [hfitting] at happend
    rw [hshare, ← happend]
    dsimp only
    rw [List.flatten_append, List.flatten_singleton, List.flatten_cons, List.append_assoc,
      ← List.append_assoc (d.take cut), List.take_append_drop, ← List.flatten_cons, ← List.flatten_append]

/-- What there is to lay out: the chunks and their characters. -/
def size (cs : List Text) : Nat :=
  cs.flatten.length + cs.length

theorem size_append (cs ds : List Text) : size (cs ++ ds) = size cs + size ds := by
  simp only [size, List.flatten_append, List.length_append]
  omega

theorem size_cons (c : Text) (cs : List Text) : size (c :: cs) = c.length + 1 + size cs := by
  simp only [size, List.flatten_cons, List.length_append, List.length_cons]
  omega

theorem size_share_le (room : Int) (cs : List Text) : size (share room cs).2 ≤ size (takeFitting room cs).2 := by
  obtain hshare | ⟨taken, d, ds, cut, hfitting, hshare⟩ := share_cases room cs
  · rw [hshare, Nat.le_iff_lt_or_eq]
    exact .inr rfl
  · rw [hshare, hfitting, size_cons, size_cons, List.length_drop]
    omega

/-- With room for a character, less is left: a chunk that fits is taken, and one that is too long for any line is cut. -/
theorem size_share_lt (hroom : 1 ≤ room) (c : Text) (cs : List Text) :
    size (share room (c :: cs)).2 < size (c :: cs) := by
  by_cases hfit : (c.length : Int) ≤ room
  · have htaken : (takeFitting room (c :: cs)).2 = (takeFitting (room - c.length) cs).2 := by
      rw [takeFitting, if_pos hfit]
    have hrest := congrArg size (takeFitting_append (room - c.length) cs)
    have hle := size_share_le room (c :: cs)
    rw [size_append] at hrest
    rw [htaken] at hle
    rw [size_cons]
    omega
  · have htaken : takeFitting room (c :: cs) = ([], c :: cs) := if_neg hfit
    have hcut : 0 < breakPoint room.toNat c := breakPoint_pos (by omega) c
    rw [share, htaken]
    dsimp only
    rw [if_pos (by omega), if_neg (by omega), List.flatten_nil, List.length_nil, Nat.sub_zero, size_cons, size_cons,
      List.length_drop]
    omega

/-- Each line takes something away from what there is to lay out. -/
theorem size_share_behind_lt (hroom : 1 ≤ room) (drops : Bool) (c : Text) (cs : List Text) :
    size (share room (if drops then cs else c :: cs)).2 < size (c :: cs) := by
  split_ifs
  · have hle := size_share_le room cs
    have hleft := congrArg size (takeFitting_append room cs)
    rw [size_append] at hleft
    rw [size_cons]
    omega
  · exact size_share_lt hroom c cs

theorem ink_behind (started : Bool) (c : Text) (cs : List Text) :
    ink (if started && isBlankChunk c then cs else c :: cs).flatten = ink (c :: cs).flatten := by
  split_ifs with hblank
  · rw [Bool.and_eq_true] at hblank
    rw [List.flatten_cons, ink_append, ink_eq_nil (List.all_eq_true.mp hblank.2), List.nil_append]
  · rfl

/-- The lines show the characters of the chunks, and the fuel lasts for all of them. -/
theorem ink_layOut (hindent : ∀ c ∈ indent, isBlank c) (hwidth : indent.length < width) {started : Bool}
    (hfuel : size cs < fuel) : ink (layOut width indent fuel started cs).flatten = ink cs.flatten := by
  induction fuel generalizing started cs with
  | zero => omega
  | succ fuel ih =>
    cases cs with
    | nil => rfl
    | cons c cs =>
      set lead := if started then indent else [] with hlead
      set behind := if started && isBlankChunk c then cs else c :: cs with hbehind
      set row := share (width - lead.length) behind with hrow
      have hleadBlank : ink lead = [] := by
        rw [hlead]
        split_ifs
        · exact ink_eq_nil hindent
        · rfl
      have hroom : 1 ≤ (width : Int) - lead.length := by
        rw [hlead]
        split_ifs
        · omega
        · rw [List.length_nil]
          omega
      have hsize : size row.2 < fuel := by
        have hlt : size row.2 < size (c :: cs) := size_share_behind_lt hroom _ c cs
        omega
      have hbehindInk : ink behind.flatten = ink (c :: cs).flatten := ink_behind started c cs
      have hshare : ink (dropLastBlank row.1).flatten ++ ink row.2.flatten = ink behind.flatten := by
        rw [ink_dropLastBlank, ← ink_append, share_flatten]
      rw [layOut_cons, ← hbehindInk, ← hshare]
      dsimp only
      rw [← hlead, ← hbehind, ← hrow]
      cases hline : dropLastBlank row.1 with
      | nil => exact ih hsize
      | cons d line =>
        dsimp only
        rw [List.flatten_cons, ink_append, ink_append, hleadBlank, ih hsize]
        rfl

/-- Filling shows the characters of the paragraph. -/
theorem ink_fill (hindent : ∀ c ∈ indent, isBlank c) (hwidth : indent.length < width) (t : Text) :
    ink (fill width indent t).flatten = ink t := by
  rw [fill, ink_layOut hindent hwidth (by rw [size]; omega), flatten_chunks, ink_plainBlanks]

/-- A text is always wrapped for a screen, and nothing is lost. -/
theorem exists_wrap {widest : Int} {spaces : Nat} (hspaces : 0 < spaces) (hscreen : spaces < 60)
    (hwidest : spaces < widest) (columns : Nat) (t : Text) :
    ∃ u, wrap? columns widest (some spaces) t = some u ∧ ink u = ink t := by
  have hbound : (spaces : Int) < screenWidth columns widest := by
    rw [screenWidth]
    omega
  have hindent : ∀ line : Text, continuation (some (spaces : Int)) line = List.replicate spaces ' ' := by
    intro line
    have hkept : (some (spaces : Int)).filter (· ≠ 0) = some (spaces : Int) := by simp; omega
    rw [continuation, hkept]
    rfl
  have hfill : ∀ line : Text,
      ink (fill (screenWidth columns widest).toNat (continuation (some (spaces : Int)) line) line).flatten = ink line := by
    intro line
    rw [hindent]
    refine ink_fill (fun c hc => List.eq_of_mem_replicate hc ▸ rfl) ?_ line
    rw [List.length_replicate]
    omega
  have hblank : ∀ c ∈ ['\n'], isBlank c := by decide
  refine ⟨_, if_neg (by omega), ?_⟩
  have hline : ∀ line ∈ lines t, _ = ink line := fun line _ => (ink_join hblank _).trans (hfill line)
  calc _ = ((lines t).map ink).flatten := by
        rw [ink_join hblank, ink_flatten, List.map_map]
        exact congrArg List.flatten (List.map_congr_left hline)
    _ = ink (join ['\n'] (lines t)) := by rw [ink_join hblank, ink_flatten]
    _ = ink t := by rw [lines, join_splitOn]

end Wrap
end DraftLint.Text
