import DraftLint.Proofs.Pattern.Replacing
import DraftLint.Proofs.Text.Removal
import Mathlib.Data.List.Count

/-!
# Characters with their places

A removal can be followed character by character: each character that is kept has its place in the text from which
others were taken out.
-/

namespace DraftLint

/-- Characters of a text with their places in it. -/
abbrev Placed := List (Char × Nat)

namespace Placed

/-- The places go up. -/
def Ordered (l : Placed) : Prop :=
  l.Pairwise fun x y => x.2 < y.2

def text (l : Placed) : Text :=
  l.map (·.1)

variable {l l' : Placed} {old t : Text}

section Ordered

theorem text_zipIdx (t : Text) (n : Nat) : text (t.zipIdx n) = t :=
  List.zipIdx_map_fst n t

theorem ordered_zipIdx (t : Text) (n : Nat) : Ordered (t.zipIdx n) := by
  induction t generalizing n with
  | nil => exact .nil
  | cons c t ih =>
    rw [List.zipIdx_cons, Ordered, List.pairwise_cons]
    refine ⟨fun x hx => ?_, ih (n + 1)⟩
    exact Nat.lt_of_succ_le (List.le_snd_of_mem_zipIdx hx)

/-- What stands before a character are the characters at smaller places. -/
theorem Ordered.take_eq_filter {k p : Nat} {c : Char} (h : Ordered l) (hk : l[k]? = some (c, p)) :
    l.take k = l.filter (·.2 < p) := by
  obtain ⟨hlt, hget⟩ := List.getElem?_eq_some_iff.mp hk
  have hsplit : l = l.take k ++ (c, p) :: l.drop (k + 1) := by
    rw [← hget, List.getElem_cons_drop, List.take_append_drop]
  rw [Ordered, hsplit, List.pairwise_append, List.pairwise_cons] at h
  obtain ⟨-, ⟨hafter, -⟩, hbefore⟩ := h
  have hfront : (l.take k).filter (·.2 < p) = l.take k :=
    List.filter_eq_self.mpr fun x hx => decide_eq_true (hbefore x hx _ (List.mem_cons_self ..))
  have hback : ((c, p) :: l.drop (k + 1)).filter (·.2 < p) = [] := by
    rw [List.filter_eq_nil_iff]
    refine List.forall_mem_cons.mpr ⟨by simp, fun x hx => ?_⟩
    have hlater := hafter x hx
    simp only [decide_eq_true_eq]
    omega
  conv_rhs => rw [hsplit]
  rw [List.filter_append, hfront, hback, List.append_nil]

/-- How often a character stands before another one. -/
theorem Ordered.count_take {k p : Nat} {c : Char} (h : Ordered l) (hk : l[k]? = some (c, p)) (d : Char) :
    ((text l).take k).count d = l.countP fun x => x.1 == d && x.2 < p := by
  rw [text, ← List.map_take, h.take_eq_filter hk, List.count, List.countP_map, List.countP_filter]
  rfl

end Ordered

section Without

/-- The characters without those of a text wherever it stands; the first `skip` of them belong to it. -/
def without (old : Text) : (skip : Nat) → Placed → Placed
  | _, [] => []
  | skip + 1, _ :: l => without old skip l
  | 0, x :: l =>
    if !old.isEmpty && Text.startsWith old (text (x :: l)) then without old (old.length - 1) l
    else x :: without old 0 l

theorem text_without (old : Text) (skip : Nat) (l : Placed) :
    text (without old skip l) = Text.replaceAll.go old [] skip (text l) := by
  induction l generalizing skip with
  | nil => cases skip <;> rfl
  | cons x l ih =>
    cases skip with
    | succ skip => exact ih skip
    | zero =>
      have htext : text (x :: l) = x.1 :: text l := rfl
      rw [without, htext, Text.replaceAll.go]
      split
      · exact ih _
      · exact congrArg (x.1 :: ·) (ih 0)

theorem without_sublist (old : Text) (skip : Nat) (l : Placed) : (without old skip l).Sublist l := by
  induction l generalizing skip with
  | nil => cases skip <;> exact .slnil
  | cons x l ih =>
    cases skip with
    | succ skip => exact (ih skip).cons x
    | zero =>
      rw [without]
      split
      · exact (ih _).cons x
      · exact (ih 0).cons_cons x

/-- Nothing is taken out but characters of the text. -/
theorem countP_without {f : Char × Nat → Bool} (hold : ∀ x, f x → x.1 ∉ old) (skip : Nat) (l : Placed)
    (hskip : ∀ x ∈ l.take skip, x.1 ∈ old) : (without old skip l).countP f = l.countP f := by
  induction l generalizing skip with
  | nil => cases skip <;> rfl
  | cons x l ih =>
    have hdrop (hx : x.1 ∈ old) : (x :: l).countP f = l.countP f :=
      List.countP_cons_of_neg fun hf => hold x hf hx
    cases skip with
    | succ skip =>
      obtain ⟨hx, hrest⟩ := List.forall_mem_cons.mp hskip
      rw [hdrop hx]
      exact ih skip hrest
    | zero =>
      rw [without]
      split
      · next hstarts =>
        rw [Bool.and_eq_true] at hstarts
        obtain ⟨rest, hrest⟩ := List.isPrefixOf_iff_prefix.mp hstarts.2
        cases old with
        | nil => exact absurd hstarts.1 (by decide)
        | cons c old =>
          obtain ⟨hc, hold'⟩ := List.cons.inj hrest
          have hx : x.1 = c := hc.symm
          rw [hdrop (by rw [hx]; exact List.mem_cons_self ..)]
          refine ih _ fun y hy => ?_
          have hmem : y.1 ∈ (text l).take old.length := by
            rw [text, ← List.map_take]
            exact List.mem_map_of_mem hy
          have htake : (text l).take old.length = old := by
            rw [show text l = old ++ rest from hold'.symm, List.take_left]
          rw [htake] at hmem
          exact List.mem_cons_of_mem c hmem
      · rw [List.countP_cons, List.countP_cons, ih 0 (by simp)]

end Without

end Placed

namespace Pattern

open Placed

/-- The place lies in one of the matches. -/
def covers (ms : List Match) (n : Nat) : Bool :=
  ms.any fun m => m.start.pos ≤ n && n < m.stop.pos

section Uncovered

variable {p : Pattern} {fuel : Nat}

/-- Before the matches of a scan nothing is covered. -/
theorem covers_eq_false {skip n pos : Nat} {before rest : List Char} (h : n < pos) :
    covers (p.scanFrom fuel skip before rest pos) n = false := by
  rw [covers, List.any_eq_false]
  intro m hm
  have hpos := pos_le_of_mem_scanFrom hm
  simp only [Bool.and_eq_true, decide_eq_true_eq, not_and]
  omega

theorem text_uncovered_from (hp : ∀ c m, p.matchAt fuel c = some m → c.pos < m.stop.pos) (skip : Nat)
    (before rest : List Char) (pos : Nat) :
    text ((rest.zipIdx pos).filter fun x => pos + skip ≤ x.2 && !covers (p.scanFrom fuel skip before rest pos) x.2) =
      p.replaceFrom [] fuel skip before rest pos := by
  induction rest generalizing skip before pos with
  | nil => cases skip <;> rfl
  | cons c rest ih =>
    have hlater : ∀ x ∈ rest.zipIdx (pos + 1), pos + 1 ≤ x.2 := fun x hx => List.le_snd_of_mem_zipIdx hx
    rw [List.zipIdx_cons]
    cases skip with
    | succ skip =>
      have hskipped : ¬pos + (skip + 1) ≤ pos := by omega
      rw [List.filter_cons_of_neg (by simp [hskipped]), replaceFrom, ← ih]
      refine congrArg text (List.filter_congr fun x _ => ?_)
      rw [scanFrom, Nat.add_right_comm, Nat.add_assoc]
    | zero =>
      rw [scanFrom, replaceFrom]
      cases hm : p.matchAt fuel ⟨before, c :: rest, pos⟩ with
      | none =>
        have hfree : covers (p.scanFrom fuel 0 (c :: before) rest (pos + 1)) pos = false :=
          covers_eq_false (Nat.lt_succ_self pos)
        rw [List.filter_cons_of_pos (by simp [hfree])]
        refine congrArg (c :: ·) ((congrArg text (List.filter_congr fun x hx => ?_)).trans
          (ih 0 (c :: before) (pos + 1)))
        have hx := hlater x hx
        have hle : pos ≤ x.2 := by omega
        simp [hx, hle]
      | some m =>
        have hstart : m.start.pos = pos := congrArg Cursor.pos (start_of_matchAt hm)
        have hstop : pos < m.stop.pos := hp _ m hm
        rw [List.filter_cons_of_neg (by simp [covers, hstart, hstop])]
        dsimp only
        rw [List.nil_append, ← ih]
        refine congrArg text (List.filter_congr fun x hx => ?_)
        have hx := hlater x hx
        have hle : pos ≤ x.2 := by omega
        have hskip : pos + 1 + (m.stop.pos - pos - 1) = m.stop.pos := by omega
        have hiff : decide (x.2 < m.stop.pos) = !decide (m.stop.pos ≤ x.2) := by
          rw [← decide_not, decide_eq_decide, Nat.not_le]
        simp only [covers, List.any_cons, hstart, hle, hskip, hiff, decide_true, Bool.true_and, Nat.add_zero,
          Bool.not_or, Bool.not_not]

/-- A substitution by nothing keeps the characters that no match covers. -/
theorem text_uncovered {t : Text} (hp : ∀ c m, p.matchAt t.length c = some m → c.pos < m.stop.pos) :
    text (t.zipIdx.filter fun x => !covers (p.scan t) x.2) = p.substitute [] t := by
  rw [substitute_eq, ← text_uncovered_from hp 0 [] t 0]
  refine congrArg text (List.filter_congr fun x _ => ?_)
  rw [Nat.add_zero, decide_eq_true (Nat.zero_le x.2), Bool.true_and, scan]

end Uncovered
end Pattern
end DraftLint
