import DraftLint.Proofs.Pattern.Preference

/-!
# Scanning

What a scan finds from the front of a text: it passes characters at which nothing matches, and after a match it goes
on where that has ended.  Where a pattern without repetitions can match is told by the first characters ahead.
-/

namespace DraftLint

namespace Cursor

/-- Whether characters are seen is told by as many as there are sets. -/
theorem sees_append_right {sets : List CharSet} {t : Text} (h : sets.length ≤ t.length) (w : Text) :
    sees sets (t ++ w) = sees sets t := by
  induction sets generalizing t with
  | nil => rfl
  | cons s sets ih =>
    cases t with
    | nil => cases h
    | cons c t => rw [List.cons_append, sees, sees, ih (Nat.le_of_succ_le_succ h)]

/-- Fewer characters than are seen are seen too. -/
theorem sees_take {sets : List CharSet} {t : Text} (h : sees sets t) (k : Nat) : sees (sets.take k) t := by
  have hsplit := Pattern.sees_append (sets.take k) (sets.drop k) t
  rw [List.take_append_drop, h] at hsplit
  exact (Bool.and_eq_true_iff.mp hsplit.symm).1

/-- What is seen from a text on that begins further back is seen in the rest of it. -/
theorem sees_drop {sets : List CharSet} {y t : Text} (h : sees sets (y ++ t)) (hy : y.length ≤ sets.length) :
    sees (sets.drop y.length) t := by
  have hsplit := Pattern.sees_append (sets.take y.length) (sets.drop y.length) (y ++ t)
  rw [List.take_append_drop, h, List.length_take_of_le hy, List.drop_left] at hsplit
  exact (Bool.and_eq_true_iff.mp hsplit.symm).2

end Cursor

namespace Pattern

section Scan

variable {p : Pattern} {m : Match} {fuel : Nat} {u v w : Text}

/-- The matches in the rest `v` of a text after `u`. -/
def scanAfter (p : Pattern) (fuel : Nat) (u v : Text) : List Match :=
  p.scanFrom fuel 0 u.reverse v u.length

theorem scan_eq_scanAfter (p : Pattern) (t : Text) : p.scan t = p.scanAfter t.length [] t :=
  rfl

/-- A character at which nothing matches is passed. -/
theorem scanAfter_step {c : Char} (h : p.matchAt fuel (.amid u (c :: v)) = none) :
    p.scanAfter fuel u (c :: v) = p.scanAfter fuel (u ++ [c]) v := by
  have hnone : p.matchAt fuel ⟨u.reverse, c :: v, u.length⟩ = none := h
  rw [scanAfter, scanFrom, hnone]
  simp [scanAfter]

/-- Characters at which nothing matches are passed. -/
theorem scanAfter_passed (p : Pattern) (fuel : Nat) (u v w : Text)
    (h : ∀ x y, v = x ++ y → y ≠ [] → p.matchAt fuel (.amid (u ++ x) (y ++ w)) = none) :
    p.scanAfter fuel u (v ++ w) = p.scanAfter fuel (u ++ v) w := by
  induction v generalizing u with
  | nil => rw [List.nil_append, List.append_nil]
  | cons c v ih =>
    have hfirst := h [] (c :: v) rfl (List.cons_ne_nil c v)
    rw [List.append_nil, List.cons_append] at hfirst
    have hrest := ih (u ++ [c]) fun x y hv hy => by
      have hnext := h (c :: x) y (by rw [hv]; rfl) hy
      rwa [List.append_assoc]
    rw [List.append_assoc, List.singleton_append] at hrest
    rw [← hrest, List.cons_append, scanAfter_step hfirst]

theorem scanFrom_skip (before : List Char) (pos : Nat) :
    p.scanFrom fuel v.length before (v ++ w) pos = p.scanFrom fuel 0 (v.reverse ++ before) w (pos + v.length) := by
  induction v generalizing before pos with
  | nil => rfl
  | cons c v ih =>
    rw [List.length_cons, List.cons_append, scanFrom, ih, List.reverse_cons, List.append_assoc, Nat.add_assoc,
      Nat.add_comm 1]
    rfl

/-- A match is found, and the scan goes on after it. -/
theorem scanAfter_found (hv : v ≠ []) (h : p.matchAt fuel (.amid u (v ++ w)) = some m)
    (hstop : m.stop.pos = u.length + v.length) :
    p.scanAfter fuel u (v ++ w) = m :: p.scanAfter fuel (u ++ v) w := by
  obtain ⟨c, v, rfl⟩ := List.exists_cons_of_ne_nil hv
  have hm : p.matchAt fuel ⟨u.reverse, c :: (v ++ w), u.length⟩ = some m := h
  have hskip : m.stop.pos - u.length - 1 = v.length := by
    rw [hstop, List.length_cons]
    omega
  rw [List.cons_append, scanAfter, scanFrom, hm]
  simp only [hskip, scanFrom_skip]
  rw [scanAfter, List.reverse_append, List.reverse_cons, List.length_append, List.length_cons, List.append_assoc,
    Nat.add_assoc, Nat.add_comm 1]
  rfl

/-- Nothing is found in a rest where nothing matches. -/
theorem scanAfter_eq_nil (h : ∀ x y, v = x ++ y → p.matchAt fuel (.amid (u ++ x) y) = none) :
    p.scanAfter fuel u v = [] := by
  have hpassed := scanAfter_passed p fuel u v [] fun x y hv _ => by
    rw [List.append_nil]
    exact h x y hv
  rw [List.append_nil] at hpassed
  have hend : p.matchAt fuel ⟨(u ++ v).reverse, [], (u ++ v).length⟩ = none := h v [] (List.append_nil v).symm
  rw [hpassed, scanAfter, scanFrom, hend]
  rfl

end Scan

section Repetition

variable {α : Type} {p : Pattern} {fuel fuel' : Nat} {r r' : Reach} {next : Reach → Option α} {a : α}

theorem run_eq_none (h : ∀ t r', ¬Reads p r t r') : p.run fuel r next = none := by
  rw [Option.eq_none_iff_forall_ne_some]
  intro a ha
  obtain ⟨t, r', hread, -⟩ := Reads.of_run fuel ha
  exact h t r' hread

/-- A repetition is left where no further round can be read. -/
theorem greedy_done (h : ∀ t r', ¬Reads p r t r') :
    Reach.greedy (fun r next => p.run fuel' r next) next fuel r = next r := by
  cases fuel with
  | zero => rfl
  | succ fuel =>
    rw [Reach.greedy, run_eq_none h]
    rfl

end Repetition

section Rows

variable {p q : Pattern} {r r' : Reach} {t u v : Text} {row : List CharSet} {captures : List Capture}

/-- The pattern has neither repetitions nor groups nor conditions. -/
def Bounded : Pattern → Prop
  | empty | one _ => True
  | seq p q | alt p q => p.Bounded ∧ q.Bounded
  | many _ | few _ | group .. | anchor _ | ahead _ | notAhead _ => False

/-- The ways that such a pattern can take in order of preference, each as the sets of the characters that it reads. -/
def rows : Pattern → List (List CharSet)
  | one s => [[s]]
  | seq p q => p.rows.flatMap fun row => q.rows.map (row ++ ·)
  | alt p q => p.rows ++ q.rows
  | empty | many _ | few _ | group .. | anchor _ | ahead _ | notAhead _ => [[]]

theorem Bounded.direct (h : p.Bounded) : p.Direct := by
  induction p with
  | seq p q ihp ihq | alt p q ihp ihq => exact ⟨ihp h.1, ihq h.2⟩
  | empty | one s => trivial
  | _ => exact h.elim

theorem bounded_literal : (cs : List Char) → (literal cs).Bounded
  | [] | [_] => trivial
  | _ :: d :: cs => ⟨trivial, bounded_literal (d :: cs)⟩

theorem bounded_lit (s : String) : (lit s).Bounded :=
  bounded_literal s.toList

theorem Bounded.seq (hp : p.Bounded) (hq : q.Bounded) : (Pattern.seq p q).Bounded :=
  ⟨hp, hq⟩

theorem Bounded.maybe (hp : p.Bounded) : (Pattern.maybe p).Bounded :=
  ⟨hp, trivial⟩

theorem Bounded.ignoreCase (h : p.Bounded) : p.ignoreCase.Bounded := by
  induction p with
  | seq p q ihp ihq | alt p q ihp ihq => exact ⟨ihp h.1, ihq h.2⟩
  | empty | one s => trivial
  | _ => exact h.elim

/-- What follows is tried after each of the ways that are seen ahead. -/
theorem run_rows {α : Type} {next : Reach → Option α} {fuel : Nat} (hp : p.Bounded) :
    p.run fuel ⟨.amid u v, captures⟩ next = p.rows.findSome? fun row =>
      if Cursor.sees row v then next ⟨.amid (u ++ v.take row.length) (v.drop row.length), captures⟩ else none := by
  induction p generalizing u v next with
  | empty => simp [run, rows, Cursor.sees]
  | one s =>
    rw [run_row (.single s)]
    simp [rows]
  | alt p q ihp ihq =>
    rw [run, ihp hp.1, ihq hp.2, rows, List.findSome?_append, Option.orElse_eq_orElse, Option.orElse_eq_or]
  | seq p q ihp ihq =>
    rw [run, ihp hp.1, rows]
    induction p.rows with
    | nil => rfl
    | cons row rest ih =>
      rw [List.flatMap_cons, List.findSome?_append, ← ih, List.findSome?_map, ← List.singleton_append,
        List.findSome?_append, List.findSome?_singleton, ihq hp.2]
      refine congrArg (Option.or · _) ?_
      by_cases hrow : Cursor.sees row v = true
      · simp only [hrow, if_true, Function.comp_def, sees_append, Bool.true_and, List.length_append, List.take_add,
          List.drop_drop, List.append_assoc]
      · rw [if_neg hrow, eq_comm, List.findSome?_eq_none_iff]
        intro row' _
        simp [sees_append, hrow]
  | _ => exact hp.elim

/-- The way is taken that is the first to be seen ahead, if what follows succeeds on it. -/
theorem run_of_find? {α : Type} {next : Reach → Option α} {a : α} {fuel : Nat} (hp : p.Bounded)
    (hrow : p.rows.find? (Cursor.sees · v) = some row)
    (ha : next ⟨.amid (u ++ v.take row.length) (v.drop row.length), captures⟩ = some a) :
    p.run fuel ⟨.amid u v, captures⟩ next = some a := by
  obtain ⟨hsees, before, after, hsplit, hbefore⟩ := List.find?_eq_some_iff_append.mp hrow
  have hnone : before.findSome? (fun row => if Cursor.sees row v then
      next ⟨.amid (u ++ v.take row.length) (v.drop row.length), captures⟩ else none) = none := by
    rw [List.findSome?_eq_none_iff]
    intro row' hrow'
    rw [if_neg (by simpa using hbefore row' hrow')]
  rw [run_rows hp, hsplit, List.findSome?_append, hnone, Option.none_or, List.findSome?_cons, if_pos hsees, ha]

/-- What such a pattern reads is seen by one of its rows. -/
theorem Reads.exists_row (h : Reads p r t r') (hp : p.Bounded) :
    ∃ row ∈ p.rows, row.length = t.length ∧ Cursor.sees row r.cursor.rest := by
  induction h with
  | empty r => exact ⟨[], List.mem_singleton_self _, rfl, rfl⟩
  | one before rest pos captures hs => exact ⟨_, List.mem_singleton_self _, rfl, by simp [Cursor.sees, hs]⟩
  | @seq p q r r' r'' t u hread hrest ih ih' =>
    obtain ⟨row, hrow, hlength, hsees⟩ := ih hp.1
    obtain ⟨row', hrow', hlength', hsees'⟩ := ih' hp.2
    refine ⟨row ++ row', List.mem_flatMap.mpr ⟨row, hrow, List.mem_map_of_mem hrow'⟩, by simp [hlength, hlength'], ?_⟩
    rw [sees_append, hsees, hlength, hread.advance.1, List.drop_left, hsees', Bool.and_self]
  | left h ih =>
    obtain ⟨row, hrow, hsees⟩ := ih hp.1
    exact ⟨row, List.mem_append_left _ hrow, hsees⟩
  | right h ih =>
    obtain ⟨row, hrow, hsees⟩ := ih hp.2
    exact ⟨row, List.mem_append_right _ hrow, hsees⟩
  | _ => exact hp.elim

/-- What one of its rows sees, such a pattern reads. -/
theorem reads_of_row (hp : p.Bounded) (hrow : row ∈ p.rows) (h : Cursor.sees row v) (captures : List Capture) :
    Reads p ⟨.amid u v, captures⟩ (v.take row.length) ⟨.amid (u ++ v.take row.length) (v.drop row.length), captures⟩ := by
  induction p generalizing row u v with
  | empty =>
    obtain rfl := List.mem_singleton.mp hrow
    rw [List.length_nil, List.take_zero, List.append_nil, List.drop_zero]
    exact .empty _
  | one s =>
    obtain rfl := List.mem_singleton.mp hrow
    cases v with
    | nil => cases h
    | cons c v =>
      have hc : s c = true := by simpa [Cursor.sees] using h
      exact Reads.one_amid hc u v captures
  | seq p q ihp ihq =>
    obtain ⟨first, hfirst, hmem⟩ := List.mem_flatMap.mp hrow
    obtain ⟨second, hsecond, rfl⟩ := List.mem_map.mp hmem
    rw [sees_append, Bool.and_eq_true] at h
    have hboth := (ihp hp.1 hfirst h.1 (u := u)).seq (ihq hp.2 hsecond h.2 (u := u ++ v.take first.length))
    rwa [List.append_assoc, ← List.take_add, List.drop_drop, ← List.length_append] at hboth
  | alt p q ihp ihq =>
    rcases List.mem_append.mp hrow with hrow | hrow
    · exact (ihp hp.1 hrow h).left
    · exact (ihq hp.2 hrow h).right
  | _ => exact hp.elim

end Rows

end Pattern
end DraftLint
