import DraftLint.Proofs.Pattern.Scanning

/-!
# Replacing matches

What a substitution does from the front of a text: characters at which nothing matches are kept, and what a
match has read is replaced.
-/

namespace DraftLint.Pattern

variable {p : Pattern} {m : Match} {new t u v w : Text} {fuel : Nat}

/-- The rest of a text at a position with every match replaced; the first `skip` characters belong to an
earlier match. -/
def replaceFrom (p : Pattern) (new : Text) (fuel : Nat) :
    (skip : Nat) → (before rest : List Char) → (pos : Nat) → Text
  | _, _, [], _ => []
  | skip + 1, before, x :: rest, pos => replaceFrom p new fuel skip (x :: before) rest (pos + 1)
  | 0, before, x :: rest, pos =>
    match p.matchAt fuel ⟨before, x :: rest, pos⟩ with
    | some m => new ++ replaceFrom p new fuel (m.stop.pos - pos - 1) (x :: before) rest (pos + 1)
    | none => x :: replaceFrom p new fuel 0 (x :: before) rest (pos + 1)

section Scan

/-- No match starts in what belongs to an earlier one. -/
theorem pos_le_of_mem_scanFrom {skip : Nat} {before rest : List Char} {pos : Nat}
    (h : m ∈ p.scanFrom fuel skip before rest pos) : pos + skip ≤ m.start.pos := by
  induction rest generalizing skip before pos with
  | nil =>
    cases skip with
    | zero => exact Nat.le_of_eq (congrArg Cursor.pos (start_of_matchAt (Option.mem_toList.mp h))).symm
    | succ skip => simp [scanFrom] at h
  | cons x rest ih =>
    cases skip with
    | succ skip =>
      have hle := ih h
      omega
    | zero =>
      rw [scanFrom] at h
      split at h
      · rename_i m' hm'
        rcases List.mem_cons.mp h with rfl | h
        · exact Nat.le_of_eq (congrArg Cursor.pos (start_of_matchAt hm')).symm
        · have hle := ih h
          omega
      · have hle := ih h
        omega

theorem go_scanFrom (skip : Nat) (before rest : List Char) (pos : Nat) :
    substitute.go new skip pos (p.scanFrom fuel skip before rest pos) rest =
      p.replaceFrom new fuel skip before rest pos := by
  induction rest generalizing skip before pos with
  | nil => simp [substitute.go, replaceFrom]
  | cons x rest ih =>
    cases skip with
    | succ skip => exact ih skip (x :: before) (pos + 1)
    | zero =>
      rw [scanFrom, replaceFrom]
      cases hm : p.matchAt fuel ⟨before, x :: rest, pos⟩ with
      | some m =>
        have hstart : m.start.pos = pos := congrArg Cursor.pos (start_of_matchAt hm)
        simp only [substitute.go, hstart, if_true, ih]
      | none =>
        have hrest := ih 0 (x :: before) (pos + 1)
        simp only
        rw [← hrest]
        cases hms : p.scanFrom fuel 0 (x :: before) rest (pos + 1) with
        | nil =>
          cases rest <;> rfl
        | cons m ms =>
          have hmem : m ∈ p.scanFrom fuel 0 (x :: before) rest (pos + 1) := by
            rw [hms]
            exact List.mem_cons_self ..
          have hle := pos_le_of_mem_scanFrom hmem
          rw [substitute.go, if_neg (by omega)]

theorem scanFrom_congr {q : Pattern} (h : ∀ c, p.matchAt fuel c = q.matchAt fuel c) (skip : Nat)
    (before rest : List Char) (pos : Nat) :
    p.scanFrom fuel skip before rest pos = q.scanFrom fuel skip before rest pos := by
  induction rest generalizing skip before pos with
  | nil => cases skip <;> simp [scanFrom, h]
  | cons x rest ih => cases skip <;> simp [scanFrom, h, ih]

end Scan

/-- Patterns that match alike are replaced alike. -/
theorem substitute_congr {q : Pattern} (h : ∀ fuel c, p.matchAt fuel c = q.matchAt fuel c) (new t : Text) :
    p.substitute new t = q.substitute new t := by
  rw [substitute, scan, scanFrom_congr (h t.length)]
  rfl

/-- A substitution replaces match by match from the front. -/
theorem substitute_eq (p : Pattern) (new t : Text) :
    p.substitute new t = p.replaceFrom new t.length 0 [] t 0 :=
  go_scanFrom 0 [] t 0

/-- The rest `v` of a text after `u` with every match replaced. -/
def replaceAfter (p : Pattern) (new : Text) (fuel : Nat) (u v : Text) : Text :=
  p.replaceFrom new fuel 0 u.reverse v u.length

theorem replaceAfter_nil (u : Text) : p.replaceAfter new fuel u [] = [] := by
  simp [replaceAfter, replaceFrom]

theorem substitute_eq_replaceAfter (p : Pattern) (new t : Text) :
    p.substitute new t = p.replaceAfter new t.length [] t :=
  substitute_eq p new t

theorem replaceAfter_eq_go (p : Pattern) (new : Text) (fuel : Nat) (u v : Text) :
    p.replaceAfter new fuel u v = substitute.go new 0 u.length (p.scanAfter fuel u v) v :=
  (go_scanFrom 0 u.reverse v u.length).symm

/-- What is in front of all matches is kept. -/
theorem go_kept {pos : Nat} {ms : List Match} (h : ∀ m ∈ ms, pos + v.length ≤ m.start.pos) :
    substitute.go new 0 pos ms (v ++ w) = v ++ substitute.go new 0 (pos + v.length) ms w := by
  induction v generalizing pos with
  | nil => rfl
  | cons c v ih =>
    cases ms with
    | nil => cases w <;> simp [substitute.go]
    | cons m ms =>
      have hm := h m (List.mem_cons_self ..)
      have hne : m.start.pos ≠ pos := by
        rw [List.length_cons] at hm
        omega
      have hrest : substitute.go new 0 (pos + 1) (m :: ms) (v ++ w) =
          v ++ substitute.go new 0 (pos + 1 + v.length) (m :: ms) w := ih fun m' hm' => by
        have hle := h m' hm'
        rw [List.length_cons] at hle
        omega
      rw [List.cons_append, substitute.go, if_neg hne, hrest, List.length_cons, Nat.add_assoc, Nat.add_comm 1]
      rfl

/-- What belongs to a match is left out. -/
theorem go_skip (pos : Nat) (ms : List Match) :
    substitute.go new v.length pos ms (v ++ w) = substitute.go new 0 (pos + v.length) ms w := by
  induction v generalizing pos with
  | nil => rfl
  | cons c v ih => rw [List.length_cons, List.cons_append, substitute.go, ih, Nat.add_assoc, Nat.add_comm 1]

/-- Characters at which nothing matches are kept. -/
theorem replaceAfter_kept (p : Pattern) (new : Text) (fuel : Nat) (u v w : Text)
    (h : ∀ x y, v = x ++ y → y ≠ [] → p.matchAt fuel (.amid (u ++ x) (y ++ w)) = none) :
    p.replaceAfter new fuel u (v ++ w) = v ++ p.replaceAfter new fuel (u ++ v) w := by
  rw [replaceAfter_eq_go, scanAfter_passed p fuel u v w h, replaceAfter_eq_go, List.length_append]
  refine go_kept fun m hm => ?_
  have hle := pos_le_of_mem_scanFrom hm
  rwa [List.length_append] at hle

/-- What a match has read is replaced. -/
theorem replaceAfter_found (p : Pattern) (new : Text) {fuel : Nat} (u v w : Text) (hv : v ≠ [])
    (h : p.matchAt fuel (.amid u (v ++ w)) = some m) (hstop : m.stop.pos = u.length + v.length) :
    p.replaceAfter new fuel u (v ++ w) = new ++ p.replaceAfter new fuel (u ++ v) w := by
  rw [replaceAfter_eq_go, scanAfter_found hv h hstop, replaceAfter_eq_go, List.length_append]
  obtain ⟨c, v, rfl⟩ := List.exists_cons_of_ne_nil hv
  have hstart : m.start.pos = u.length := congrArg Cursor.pos (start_of_matchAt h)
  have hskip : m.stop.pos - u.length - 1 = v.length := by
    rw [hstop, List.length_cons]
    omega
  rw [List.cons_append, substitute.go, if_pos hstart, hskip, go_skip, List.length_cons, Nat.add_assoc, Nat.add_comm 1]

/-- A text in which nothing matches is kept. -/
theorem substitute_eq_self (h : ∀ u v, t = u ++ v → v ≠ [] → p.matchAt t.length (.amid u v) = none) :
    p.substitute new t = t := by
  have hkept := replaceAfter_kept p new t.length [] t [] fun x y ht hy => by
    rw [List.append_nil]
    exact h x y ht hy
  rw [List.append_nil, List.nil_append, replaceAfter_nil, List.append_nil] at hkept
  rw [substitute_eq_replaceAfter, hkept]

end DraftLint.Pattern
