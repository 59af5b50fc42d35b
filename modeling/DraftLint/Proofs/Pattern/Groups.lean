import DraftLint.Proofs.Pattern.Preference

/-!
# What groups note

The groups that a reading passes, each with the text that it encloses, the latest first; and the texts that are
accepted by counted repetitions of a character, and by what has to read a text to its end.
-/

namespace DraftLint

/-- The groups on the way with what they enclose, the latest first. -/
def Reach.noted (r : Reach) : List (Nat × Text) :=
  r.captures.map fun g => (g.group, Match.between g.start g.stop)

namespace Pattern

section Noted

variable {p : Pattern} {r r' : Reach} {t : Text} {m : Match}

theorem group?_eq_lookup (m : Match) (n : Nat) :
    m.group? n = (Reach.noted ⟨m.stop, m.captures⟩).lookup n := by
  rw [Match.group?, Reach.noted]
  generalize m.captures = captures
  induction captures with
  | nil => rfl
  | cons g captures ih =>
    rw [List.map_cons, List.lookup_cons, List.find?_cons]
    cases hn : g.group == n with
    | true =>
      obtain rfl := beq_iff_eq.mp hn
      rw [beq_self_eq_true]
      rfl
    | false =>
      rw [beq_eq_false_iff_ne.mpr (beq_eq_false_iff_ne.mp hn).symm, ← ih]

/-- There is no group in the pattern. -/
abbrev Plain (p : Pattern) : Prop :=
  p.Encloses fun _ _ => False

theorem Reads.captures_eq (h : Reads p r t r') (hp : p.Plain) : r'.captures = r.captures := by
  induction h with
  | seq h h' ih ih' => rw [ih' hp.2, ih hp.1]
  | left h ih => exact ih hp.1
  | right h ih => exact ih hp.2
  | manyMore h h' ih ih' | fewMore h h' ih ih' => rw [ih' hp, ih hp]
  | group h ih => exact hp.1.elim
  | _ => rfl

theorem Reads.noted_eq (h : Reads p r t r') (hp : p.Plain) : r'.noted = r.noted := by
  rw [Reach.noted, h.captures_eq hp, Reach.noted]

/-- A group notes what it encloses. -/
theorem Reads.noted_group {n : Nat} (h : Reads (.group n p) r t r') (hp : p.Plain) :
    r'.noted = (n, t) :: r.noted := by
  obtain ⟨s, hread, rfl⟩ := h.of_group
  rw [Reach.noted, List.map_cons, hread.between_eq, hread.captures_eq hp]
  rfl

theorem plain_times_one (s : CharSet) : (n : Nat) → (times n (one s)).Plain
  | 0 | 1 => trivial
  | n + 2 => ⟨trivial, plain_times_one s (n + 1)⟩

theorem plain_upTo_one (s : CharSet) : (n : Nat) → (upTo n (one s)).Plain
  | 0 => trivial
  | n + 1 => ⟨⟨trivial, plain_upTo_one s n⟩, trivial⟩

theorem plain_between_one (s : CharSet) (lo extra : Nat) : (between lo extra (one s)).Plain :=
  ⟨plain_times_one s lo, plain_upTo_one s extra⟩

theorem plain_atLeast_one (s : CharSet) (n : Nat) : (atLeast n (one s)).Plain :=
  ⟨plain_times_one s n, trivial⟩

end Noted

section Counted

variable {s : CharSet} {w : Text}

theorem accepts_empty : empty.Accepts [] := by
  intro u v captures
  rw [List.append_nil]
  exact ⟨captures, .empty _⟩

theorem accepts_one {c : Char} (h : s c) : (one s).Accepts [c] :=
  fun u v captures => ⟨captures, Reads.one_amid h u v captures⟩

theorem accepts_times_one {n : Nat} (hn : w.length = n) (h : ∀ c ∈ w, s c) : (times n (one s)).Accepts w := by
  induction w generalizing n with
  | nil =>
    subst hn
    exact accepts_empty
  | cons c w ih =>
    subst hn
    obtain ⟨hc, hw⟩ := List.forall_mem_cons.mp h
    cases w with
    | nil => exact accepts_one hc
    | cons d w => exact (accepts_one hc).seq (ih rfl hw)

theorem accepts_upTo_one {n : Nat} (hn : w.length ≤ n) (h : ∀ c ∈ w, s c) : (upTo n (one s)).Accepts w := by
  induction n generalizing w with
  | zero =>
    obtain rfl := List.length_eq_zero_iff.mp (Nat.le_zero.mp hn)
    exact accepts_empty
  | succ n ih =>
    cases w with
    | nil => exact accepts_empty.right
    | cons c w =>
      obtain ⟨hc, hw⟩ := List.forall_mem_cons.mp h
      exact ((accepts_one hc).seq (ih (Nat.le_of_succ_le_succ hn) hw)).left

theorem accepts_between_one {lo : Nat} (extra : Nat) (hlo : lo ≤ w.length) (hhi : w.length ≤ lo + extra)
    (h : ∀ c ∈ w, s c) : (between lo extra (one s)).Accepts w := by
  have htake := accepts_times_one (List.length_take_of_le hlo) fun c hc => h c (List.mem_of_mem_take hc)
  have hdrop : (w.drop lo).length ≤ extra := by
    rw [List.length_drop]
    omega
  have hrest := accepts_upTo_one hdrop fun c hc => h c (List.mem_of_mem_drop hc)
  rw [← List.take_append_drop lo w]
  exact htake.seq hrest

theorem accepts_atLeast_one {n : Nat} (hn : n ≤ w.length) (h : ∀ c ∈ w, s c) : (atLeast n (one s)).Accepts w := by
  have htake := accepts_times_one (List.length_take_of_le hn) fun c hc => h c (List.mem_of_mem_take hc)
  have hrest : (many (one s)).Accepts (w.drop n) := accepts_many_one fun c hc => h c (List.mem_of_mem_drop hc)
  rw [← List.take_append_drop n w]
  exact htake.seq hrest

end Counted

section Folded

theorem ignoreCase_upTo (n : Nat) (p : Pattern) : (upTo n p).ignoreCase = upTo n p.ignoreCase := by
  induction n with
  | zero => rfl
  | succ n ih => simp only [upTo, maybe, ignoreCase, ih]

theorem ignoreCase_times (p : Pattern) : (n : Nat) → (times n p).ignoreCase = times n p.ignoreCase
  | 0 | 1 => rfl
  | n + 2 => congrArg (seq p.ignoreCase) (ignoreCase_times p (n + 1))

theorem ignoreCase_between (lo extra : Nat) (p : Pattern) :
    (between lo extra p).ignoreCase = between lo extra p.ignoreCase := by
  rw [between, ignoreCase, ignoreCase_times, ignoreCase_upTo, between]

end Folded

section Rest

variable {p q : Pattern} {w x : Text}

/-- The pattern reads the text where nothing is behind it. -/
def AcceptsRest (p : Pattern) (w : Text) : Prop :=
  ∀ u captures, ∃ r, Reads p ⟨.amid u w, captures⟩ w r

theorem Accepts.seq_rest (hp : p.Accepts w) (hq : q.AcceptsRest x) : (Pattern.seq p q).AcceptsRest (w ++ x) := by
  intro u captures
  obtain ⟨captures', hw⟩ := hp u x captures
  obtain ⟨r, hx⟩ := hq (u ++ w) captures'
  exact ⟨r, hw.seq hx⟩

theorem acceptsRest_lineEnd : lineEnd.AcceptsRest [] :=
  fun _ _ => ⟨_, .anchor rfl⟩

/-- A pattern that reads all of a text matches there. -/
theorem AcceptsRest.isSome_match? (h : p.AcceptsRest w) (hp : p.Direct) :
    ((Pattern.seq textStart p).match? w).isSome := by
  obtain ⟨r, hread⟩ := h [] []
  have hstart : Reads textStart ⟨.amid [] w, []⟩ [] ⟨.amid [] w, []⟩ := .anchor rfl
  exact Pattern.isSome_match? (hstart.seq hread) ⟨trivial, hp⟩

end Rest

end Pattern
end DraftLint
