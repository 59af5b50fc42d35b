import DraftLint.Proofs.Pattern.Finding
import Mathlib.Tactic.SplitIfs

/-!
# Matches by position

A position in a text is given by what lies before it and what lies ahead.  Searches and scans find matches
at such positions, and a pattern that is a row of single characters either passes them or fails.
-/

namespace DraftLint

/-- The position in a text between its beginning and the rest. -/
def Cursor.amid (u v : Text) : Cursor :=
  ⟨u.reverse, v, u.length⟩

namespace Pattern

variable {p : Pattern} {m : Match} {t u v : Text} {fuel : Nat}

/-- A word begins or ends between two texts. -/
theorem holds_wordEdge (u v : Text) : Anchor.wordEdge.holds (.amid u v) =
    (u.getLast?.any Text.isWord != v.head?.any Text.isWord) := by
  rw [Anchor.holds, Cursor.wordBefore, Cursor.wordAhead, Cursor.amid, List.head?_reverse]

theorem matchAt_eq_none {c : Cursor} (h : ∀ u r, ¬Reads p ⟨c, []⟩ u r) : p.matchAt fuel c = none := by
  rw [Option.eq_none_iff_forall_ne_some]
  intro m hm
  obtain ⟨u, hu⟩ := reads_of_matchAt hm
  exact h _ _ hu

theorem start_of_matchAt {c : Cursor} (h : p.matchAt fuel c = some m) : m.start = c := by
  obtain ⟨u, r, -, hr⟩ := Reads.of_run fuel h
  obtain rfl := Option.some.inj hr
  rfl

/-- What was passed lies between the text before and the position reached. -/
theorem Reads.before_eq {r r' : Reach} (h : Reads p r t r') : r'.cursor.before = t.reverse ++ r.cursor.before := by
  induction h with
  | seq hp hq ihp ihq | manyMore hp hq ihp ihq | fewMore hp hq ihp ihq =>
    rw [ihq, ihp, List.reverse_append, List.append_assoc]
  | left h ih | right h ih | group h ih => exact ih
  | _ => rfl

/-- A pattern that reads on from a position in a text reaches another one of it. -/
theorem Reads.exists_amid {r : Reach} {captures : List Capture} (h : Reads p ⟨.amid u v, captures⟩ t r) :
    ∃ w captures', v = t ++ w ∧ r = ⟨.amid (u ++ t) w, captures'⟩ := by
  obtain ⟨hrest, hpos⟩ := h.advance
  have hbefore := h.before_eq
  obtain ⟨⟨before, rest, pos⟩, captures'⟩ := r
  obtain rfl : before = t.reverse ++ u.reverse := hbefore
  obtain rfl : pos = u.length + t.length := hpos
  refine ⟨rest, captures', hrest, ?_⟩
  rw [Cursor.amid, List.reverse_append, List.length_append]

section Amid

variable {s : CharSet}

theorem Reads.one_amid {c : Char} (hc : s c) (u v : Text) (captures : List Capture) :
    Reads (.one s) ⟨.amid u (c :: v), captures⟩ [c] ⟨.amid (u ++ [c]) v, captures⟩ := by
  have hread := Reads.one u.reverse v u.length captures hc
  rwa [Cursor.amid, Cursor.amid, List.reverse_append, List.length_append]

theorem Reads.many_amid {x : Text} (hx : ∀ c ∈ x, s c) (u v : Text) (captures : List Capture) :
    Reads (.many (.one s)) ⟨.amid u (x ++ v), captures⟩ x ⟨.amid (u ++ x) v, captures⟩ := by
  have hread := Reads.many_one hx u.reverse v u.length captures
  rwa [← List.reverse_append, ← List.length_append] at hread

/-- A run of characters of a set can be read if there is one at least. -/
theorem Reads.atLeastOnce_amid {x : Text} (hne : x ≠ []) (hx : ∀ c ∈ x, s c) (u v : Text)
    (captures : List Capture) :
    Reads (.atLeastOnce (.one s)) ⟨.amid u (x ++ v), captures⟩ x ⟨.amid (u ++ x) v, captures⟩ := by
  obtain ⟨c, x, rfl⟩ := List.exists_cons_of_ne_nil hne
  obtain ⟨hc, hx⟩ := List.forall_mem_cons.mp hx
  have hmore := Reads.many_amid hx (u ++ [c]) v captures
  rw [List.append_assoc] at hmore
  exact (Reads.one_amid hc u (x ++ v) captures).seq hmore

end Amid

section Rows

/-- The pattern reads one character from each of the sets in turn. -/
inductive Row : List CharSet → Pattern → Prop
  | nil : Row [] .empty
  | single (s : CharSet) : Row [s] (.one s)
  | cons (s : CharSet) {sets : List CharSet} {q : Pattern} (h : Row sets q) : Row (s :: sets) (.seq (.one s) q)

theorem row_literal : (cs : List Char) → Row (cs.map CharSet.only) (literal cs)
  | [] => .nil
  | [_] => .single _
  | _ :: d :: cs => (row_literal (d :: cs)).cons _

theorem row_literal_ignoreCase :
    (cs : List Char) → Row (cs.map fun c => (CharSet.only c).ignoreCase) (literal cs).ignoreCase
  | [] => .nil
  | [_] => .single _
  | _ :: d :: cs => (row_literal_ignoreCase (d :: cs)).cons _

variable {α : Type} {sets : List CharSet} {next : Reach → Option α}

theorem run_row (h : Row sets p) (u v : Text) (captures : List Capture) :
    p.run fuel ⟨.amid u v, captures⟩ next =
      if Cursor.sees sets v then next ⟨.amid (u ++ v.take sets.length) (v.drop sets.length), captures⟩
      else none := by
  induction h generalizing u v with
  | nil => simp [run, Cursor.sees]
  | single s =>
    cases v with
    | nil => rfl
    | cons x v =>
      simp only [run, Cursor.step?, Cursor.amid, Cursor.sees, Bool.and_true]
      split_ifs <;> simp
  | cons s h ih =>
    cases v with
    | nil => rfl
    | cons x v =>
      simp only [run, Cursor.step?, Cursor.sees, Bool.and_eq_true]
      by_cases hs : s x = true
      · have hrest := ih (u ++ [x]) v
        simp only [Cursor.amid, hs, if_true, true_and] at hrest ⊢
        simpa using hrest
      · simp only [Cursor.amid, hs, Bool.false_eq_true, if_false, false_and]

/-- What a row reads are characters from its sets. -/
theorem Reads.sees_row {r r' : Reach} (hread : Reads p r t r') (h : Row sets p) (w : Text) :
    t.length = sets.length ∧ Cursor.sees sets (t ++ w) := by
  induction h generalizing r t with
  | nil =>
    cases hread
    exact ⟨rfl, rfl⟩
  | single s =>
    obtain ⟨c, rfl, hc⟩ := hread.of_one
    exact ⟨rfl, by simp [Cursor.sees, hc]⟩
  | cons s h ih =>
    obtain ⟨_, t, _, rfl, hfirst, hrest⟩ := hread.of_seq
    obtain ⟨c, rfl, hc⟩ := hfirst.of_one
    obtain ⟨hlength, hsees⟩ := ih hrest
    exact ⟨by simp [hlength], by simp [Cursor.sees, hc, hsees]⟩

theorem sees_append (sets sets' : List CharSet) (t : Text) :
    Cursor.sees (sets ++ sets') t = (Cursor.sees sets t && Cursor.sees sets' (t.drop sets.length)) := by
  induction sets generalizing t with
  | nil => rfl
  | cons s sets ih =>
    cases t with
    | nil => simp [Cursor.sees]
    | cons x t => simp [Cursor.sees, ih, Bool.and_assoc]

theorem length_le_of_sees {sets : List CharSet} {t : Text} (h : Cursor.sees sets t) :
    sets.length ≤ t.length := by
  induction sets generalizing t with
  | nil => exact Nat.zero_le _
  | cons s sets ih =>
    cases t with
    | nil => cases h
    | cons x t =>
      simp only [Cursor.sees, Bool.and_eq_true] at h
      exact Nat.succ_le_succ (ih h.2)

end Rows

section Search

theorem exists_amid_of_searchFrom (h : p.searchFrom fuel u.reverse v u.length = some m) :
    ∃ w x, v = w ++ x ∧ p.matchAt fuel (.amid (u ++ w) x) = some m := by
  induction v generalizing u with
  | nil => exact ⟨[], [], rfl, by rw [List.append_nil]; exact h⟩
  | cons y v ih =>
    rw [searchFrom, Option.orElse_eq_orElse, Option.orElse_eq_or, Option.or_eq_some_iff] at h
    rcases h with h | ⟨-, h⟩
    · exact ⟨[], y :: v, rfl, by rw [List.append_nil]; exact h⟩
    · have hrest : p.searchFrom fuel (u ++ [y]).reverse v (u ++ [y]).length = some m := by simpa using h
      obtain ⟨w, x, rfl, hm⟩ := ih hrest
      exact ⟨y :: w, x, rfl, by rwa [List.append_assoc] at hm⟩

/-- The match that a search finds stands somewhere in the text. -/
theorem exists_amid_of_search? (h : p.search? t = some m) :
    ∃ u v, t = u ++ v ∧ p.matchAt t.length (.amid u v) = some m :=
  exists_amid_of_searchFrom (u := []) h

theorem isSome_searchFrom {w : Text} (h : (p.matchAt fuel (.amid (u ++ w) v)).isSome) :
    (p.searchFrom fuel u.reverse (w ++ v) u.length).isSome := by
  induction w generalizing u with
  | nil =>
    rw [List.append_nil] at h
    cases v with
    | nil => exact h
    | cons c v =>
      rw [List.nil_append, searchFrom, isSome_orElse]
      exact .inl h
  | cons c w ih =>
    have hrest := ih (u := u ++ [c]) (by rwa [List.append_assoc])
    rw [List.cons_append, searchFrom, isSome_orElse]
    right
    simpa using hrest

/-- A pattern occurs in a text if it matches at some position. -/
theorem occursIn_iff : p.occursIn t ↔ ∃ u v, t = u ++ v ∧ (p.matchAt t.length (.amid u v)).isSome := by
  constructor
  · intro h
    obtain ⟨m, hm⟩ := Option.isSome_iff_exists.mp h
    obtain ⟨u, v, ht, hmatch⟩ := exists_amid_of_search? hm
    exact ⟨u, v, ht, Option.isSome_iff_exists.mpr ⟨m, hmatch⟩⟩
  · rintro ⟨u, v, rfl, h⟩
    exact isSome_searchFrom (u := []) h

/-- A match in a text reads what stands there from its start on. -/
theorem exists_reads_of_amid (h : p.matchAt fuel (.amid u v) = some m) :
    (u ++ v).drop m.start.pos = v ∧ m.start.pos = u.length ∧ ∃ w r', w <+: v ∧ Reads p ⟨.amid u v, []⟩ w r' := by
  have hstart : m.start.pos = u.length := congrArg Cursor.pos (start_of_matchAt h)
  obtain ⟨w, hw⟩ := reads_of_matchAt h
  refine ⟨by rw [hstart, List.drop_left], hstart, w, _, ?_, hw⟩
  exact ⟨_, hw.advance.1.symm⟩

/-- Nothing but the start of the text is searched by a pattern that asks for it. -/
theorem leads_of_occursIn (h : (seq textStart p).occursIn t) : (seq textStart p).leads t := by
  obtain ⟨m, hm⟩ := Option.isSome_iff_exists.mp h
  obtain ⟨u, v, rfl, hmatch⟩ := exists_amid_of_search? hm
  obtain ⟨w, hw⟩ := reads_of_matchAt hmatch
  obtain ⟨_, _, _, -, hstart, -⟩ := hw.of_seq
  cases hstart with
  | anchor hstart =>
    obtain rfl := List.reverse_eq_nil_iff.mp (List.isEmpty_iff.mp hstart)
    exact Option.isSome_iff_exists.mpr ⟨m, hmatch⟩

end Search

section Scan

theorem exists_amid_of_mem_scanFrom {skip : Nat} (h : m ∈ p.scanFrom fuel skip u.reverse v u.length) :
    ∃ w x, v = w ++ x ∧ p.matchAt fuel (.amid (u ++ w) x) = some m := by
  induction v generalizing u skip with
  | nil =>
    cases skip with
    | zero => exact ⟨[], [], rfl, by rw [List.append_nil]; exact Option.mem_toList.mp h⟩
    | succ skip => simp [scanFrom] at h
  | cons y v ih =>
    have hlater : ∀ {k}, m ∈ p.scanFrom fuel k (y :: u.reverse) v (u.length + 1) →
        ∃ w x, y :: v = w ++ x ∧ p.matchAt fuel (.amid (u ++ w) x) = some m := by
      intro k hk
      have hnext : m ∈ p.scanFrom fuel k (u ++ [y]).reverse v (u ++ [y]).length := by simpa using hk
      obtain ⟨w, x, rfl, hm⟩ := ih hnext
      exact ⟨y :: w, x, rfl, by rwa [List.append_assoc] at hm⟩
    cases skip with
    | succ skip => exact hlater h
    | zero =>
      rw [scanFrom] at h
      split at h
      · rename_i m' hm'
        rcases List.mem_cons.mp h with rfl | h
        · exact ⟨[], y :: v, rfl, by rw [List.append_nil]; exact hm'⟩
        · exact hlater h
      · exact hlater h

/-- The matches of a scan stand somewhere in the text. -/
theorem exists_amid_of_mem_scan (h : m ∈ p.scan t) :
    ∃ u v, t = u ++ v ∧ p.matchAt t.length (.amid u v) = some m :=
  exists_amid_of_mem_scanFrom (u := []) h

theorem mem_scanFrom_of_matchAt {w : Text} {skip : Nat}
    (hm : p.matchAt fuel (.amid (u ++ w) v) = some m) (hskip : skip ≤ w.length)
    (hfree : ∀ x y m', w = x ++ y → p.matchAt fuel (.amid (u ++ x) (y ++ v)) = some m' → y ≠ [] →
      m'.stop.pos ≤ u.length + w.length) :
    m ∈ p.scanFrom fuel skip u.reverse (w ++ v) u.length := by
  induction w generalizing u skip with
  | nil =>
    obtain rfl := Nat.le_zero.mp hskip
    rw [List.append_nil] at hm
    cases v with
    | nil => exact Option.mem_toList.mpr hm
    | cons x v =>
      have hfirst : p.matchAt fuel ⟨u.reverse, x :: v, u.length⟩ = some m := hm
      rw [List.nil_append, scanFrom, hfirst]
      exact List.mem_cons_self ..
  | cons a w ih =>
    have hlater : ∀ k ≤ w.length, m ∈ p.scanFrom fuel k (a :: u.reverse) (w ++ v) (u.length + 1) := by
      intro k hk
      have hrest := ih (u := u ++ [a]) (by rwa [List.append_assoc]) hk fun x y m' hw hm' hy => by
        have hle := hfree (a :: x) y m' (by rw [hw]; rfl) (by rwa [List.append_assoc] at hm') hy
        simp only [List.length_append, List.length_cons, List.length_nil] at hle ⊢
        omega
      simpa using hrest
    cases skip with
    | succ skip => exact hlater skip (Nat.le_of_succ_le_succ hskip)
    | zero =>
      rw [List.cons_append, scanFrom]
      split
      · rename_i m' hm'
        have hfirst : p.matchAt fuel (.amid (u ++ []) ((a :: w) ++ v)) = some m' := by
          rw [List.append_nil]
          exact hm'
        have hle := hfree [] (a :: w) m' rfl hfirst (by simp)
        refine List.mem_cons_of_mem _ (hlater _ ?_)
        simp only [List.length_cons] at hle
        omega
      · exact hlater 0 (Nat.zero_le _)

/-- A scan takes a match if none that starts before it reaches over its start. -/
theorem mem_scan_of_matchAt (hm : p.matchAt (u ++ v).length (.amid u v) = some m)
    (hfree : ∀ x y m', u = x ++ y → p.matchAt (u ++ v).length (.amid x (y ++ v)) = some m' → y ≠ [] →
      m'.stop.pos ≤ u.length) :
    m ∈ p.scan (u ++ v) := by
  refine mem_scanFrom_of_matchAt (u := []) hm (Nat.zero_le _) fun x y m' hu hm' hy => ?_
  rw [List.length_nil, Nat.zero_add]
  exact hfree x y m' hu hm' hy

end Scan

end Pattern
end DraftLint
