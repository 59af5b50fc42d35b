import DraftLint.Proofs.Pattern.Positions

/-!
# Preferred matches

Which of its ways a pattern takes.  A greedy repetition of one set of characters goes on to the last place where
what follows succeeds, a lazy one stops at the first, and a search takes the leftmost match.
-/

namespace DraftLint

theorem Match.between_amid (u v w : Text) : between (.amid u (v ++ w)) (.amid (u ++ v) w) = v := by
  simp [between, Cursor.amid]

namespace Pattern

section Repetition

variable {α : Type} {s : CharSet} {fuel fuel' : Nat} {u v x : Text} {captures : List Capture}
  {next : Reach → Option α} {a : α}

theorem run_one_cons {c : Char} (hc : s c) (next : Reach → Option α) :
    (one s).run fuel ⟨.amid u (c :: v), captures⟩ next = next ⟨.amid (u ++ [c]) v, captures⟩ := by
  have hsees : Cursor.sees [s] (c :: v) = true := by simp [Cursor.sees, hc]
  rw [run_row (.single s), hsees, if_pos rfl]
  rfl

theorem run_one_eq_none (h : ∀ c w, v = c :: w → s c → next ⟨.amid (u ++ [c]) w, captures⟩ = none) :
    (one s).run fuel ⟨.amid u v, captures⟩ next = none := by
  cases v with
  | nil => rfl
  | cons c v =>
    by_cases hc : s c = true
    · rw [run_one_cons hc]
      exact h c v rfl hc
    · rw [run_row (.single s), if_neg]
      simpa [Cursor.sees] using hc

theorem greedy_one_eq_none
    (hnone : ∀ y z, v = y ++ z → (∀ c ∈ y, s c) → next ⟨.amid (u ++ y) z, captures⟩ = none) :
    Reach.greedy (fun r next => (one s).run fuel' r next) next fuel ⟨.amid u v, captures⟩ = none := by
  have hhere : next ⟨.amid u v, captures⟩ = none := by
    have hempty := hnone [] v rfl (List.forall_mem_nil _)
    rwa [List.append_nil] at hempty
  induction fuel generalizing u v with
  | zero => exact hhere
  | succ fuel ih =>
    rw [Reach.greedy, hhere, run_one_eq_none]
    · rfl
    · rintro c w rfl hc
      have hlater : ∀ y z, w = y ++ z → (∀ d ∈ y, s d) → next ⟨.amid (u ++ [c] ++ y) z, captures⟩ = none := by
        intro y z hyz hy
        rw [List.append_assoc]
        exact hnone (c :: y) z (by rw [hyz]; rfl) (List.forall_mem_cons.mpr ⟨hc, hy⟩)
      rw [if_pos (by simp [Cursor.amid])]
      refine ih hlater ?_
      have hnext := hlater [] w rfl (List.forall_mem_nil _)
      rwa [List.append_nil] at hnext

theorem greedy_one (hx : ∀ c ∈ x, s c) (ha : next ⟨.amid (u ++ x) v, captures⟩ = some a)
    (hnone : ∀ y z, v = y ++ z → y ≠ [] → (∀ c ∈ y, s c) → next ⟨.amid (u ++ x ++ y) z, captures⟩ = none)
    (hfuel : x.length ≤ fuel) :
    Reach.greedy (fun r next => (one s).run fuel' r next) next fuel ⟨.amid u (x ++ v), captures⟩ = some a := by
  induction x generalizing u fuel with
  | nil =>
    rw [List.append_nil] at ha hnone
    cases fuel with
    | zero => exact ha
    | succ fuel =>
      rw [Reach.greedy, List.nil_append, ha, run_one_eq_none]
      · rfl
      · rintro c w rfl hc
        rw [if_pos (by simp [Cursor.amid])]
        apply greedy_one_eq_none
        intro y z hyz hy
        rw [List.append_assoc]
        exact hnone (c :: y) z (by rw [hyz]; rfl) (List.cons_ne_nil c y) (List.forall_mem_cons.mpr ⟨hc, hy⟩)
  | cons c x ih =>
    obtain ⟨fuel, rfl⟩ := Nat.exists_eq_add_of_le' (Nat.le_of_add_left_le hfuel)
    have hrest := ih (u := u ++ [c]) (fun d hd => hx d (List.mem_cons_of_mem _ hd))
      (by rw [List.append_assoc]; exact ha)
      (fun y z hyz hne hy => by
        rw [List.append_assoc u]
        exact hnone y z hyz hne hy)
      (Nat.le_of_succ_le_succ hfuel)
    rw [Reach.greedy, List.cons_append, run_one_cons (hx c (List.mem_cons_self ..)), if_pos (by simp [Cursor.amid]),
      hrest]
    rfl

/-- A greedy repetition goes on to the last place where what follows succeeds. -/
theorem run_many_one (hx : ∀ c ∈ x, s c) (ha : next ⟨.amid (u ++ x) v, captures⟩ = some a)
    (hnone : ∀ y z, v = y ++ z → y ≠ [] → (∀ c ∈ y, s c) → next ⟨.amid (u ++ x ++ y) z, captures⟩ = none)
    (hfuel : x.length ≤ fuel) :
    (many (one s)).run fuel ⟨.amid u (x ++ v), captures⟩ next = some a :=
  greedy_one hx ha hnone hfuel

/-- It takes all characters of its set that are there if it can. -/
theorem run_many_one_all (hx : ∀ c ∈ x, s c) (hv : ∀ c ∈ v.head?, s c = false)
    (ha : next ⟨.amid (u ++ x) v, captures⟩ = some a) (hfuel : x.length ≤ fuel) :
    (many (one s)).run fuel ⟨.amid u (x ++ v), captures⟩ next = some a := by
  refine run_many_one hx ha (fun y z hyz hne hy => ?_) hfuel
  obtain ⟨c, y, rfl⟩ := List.exists_cons_of_ne_nil hne
  have hc := hy c (List.mem_cons_self ..)
  rw [hv c (by rw [hyz]; rfl)] at hc
  cases hc

theorem lazy_one (hx : ∀ c ∈ x, s c) (ha : next ⟨.amid (u ++ x) v, captures⟩ = some a)
    (hnone : ∀ y z, x = y ++ z → z ≠ [] → next ⟨.amid (u ++ y) (z ++ v), captures⟩ = none)
    (hfuel : x.length ≤ fuel) :
    Reach.lazy (fun r next => (one s).run fuel' r next) next fuel ⟨.amid u (x ++ v), captures⟩ = some a := by
  induction x generalizing u fuel with
  | nil =>
    rw [List.append_nil] at ha
    cases fuel with
    | zero => exact ha
    | succ fuel =>
      rw [Reach.lazy, List.nil_append, ha]
      rfl
  | cons c x ih =>
    obtain ⟨fuel, rfl⟩ := Nat.exists_eq_add_of_le' (Nat.le_of_add_left_le hfuel)
    have hrest := ih (u := u ++ [c]) (fun d hd => hx d (List.mem_cons_of_mem _ hd))
      (by rw [List.append_assoc]; exact ha)
      (fun y z hyz hz => by
        have hlater := hnone (c :: y) z (by rw [hyz]; rfl) hz
        rwa [List.append_assoc])
      (Nat.le_of_succ_le_succ hfuel)
    have hfirst := hnone [] (c :: x) rfl (List.cons_ne_nil c x)
    rw [List.append_nil] at hfirst
    rw [Reach.lazy, hfirst, List.cons_append, run_one_cons (hx c (List.mem_cons_self ..)), if_pos (by simp [Cursor.amid]),
      hrest]
    rfl

/-- A lazy repetition stops where what follows first succeeds. -/
theorem run_few_one (hx : ∀ c ∈ x, s c) (ha : next ⟨.amid (u ++ x) v, captures⟩ = some a)
    (hnone : ∀ y z, x = y ++ z → z ≠ [] → next ⟨.amid (u ++ y) (z ++ v), captures⟩ = none)
    (hfuel : x.length ≤ fuel) :
    (few (one s)).run fuel ⟨.amid u (x ++ v), captures⟩ next = some a :=
  lazy_one hx ha hnone hfuel

end Repetition

section Literal

variable {α : Type} {fuel : Nat} {cs : List Char} {u v t : Text} {captures : List Capture} {next : Reach → Option α}

theorem sees_only : Cursor.sees (cs.map CharSet.only) t ↔ cs <+: t := by
  induction cs generalizing t with
  | nil => exact iff_of_true rfl List.nil_prefix
  | cons c cs ih =>
    cases t with
    | nil => exact iff_of_false Bool.false_ne_true (by simp)
    | cons d t =>
      rw [List.map_cons, Cursor.sees, Bool.and_eq_true, ih, List.cons_prefix_cons, CharSet.only, beq_iff_eq,
        eq_comm]

/-- Text that is there is read. -/
theorem run_literal (cs u v : Text) :
    (literal cs).run fuel ⟨.amid u (cs ++ v), captures⟩ next = next ⟨.amid (u ++ cs) v, captures⟩ := by
  rw [run_row (row_literal cs), if_pos (sees_only.mpr (List.prefix_append cs v)), List.length_map,
    List.take_left, List.drop_left]

theorem direct_literal : (cs : List Char) → (literal cs).Direct
  | [] | [_] => trivial
  | _ :: d :: cs => ⟨trivial, direct_literal (d :: cs)⟩

theorem encloses_literal (q : Nat → Pattern → Prop) : (cs : List Char) → (literal cs).Encloses q
  | [] | [_] => trivial
  | _ :: d :: cs => ⟨trivial, encloses_literal q (d :: cs)⟩

theorem Reads.literal_amid (cs u v : Text) (captures : List Capture) :
    Reads (literal cs) ⟨.amid u (cs ++ v), captures⟩ cs ⟨.amid (u ++ cs) v, captures⟩ := by
  induction cs generalizing u with
  | nil =>
    rw [List.append_nil]
    exact .empty _
  | cons c cs ih =>
    have hc := Reads.one_amid (s := .only c) (beq_self_eq_true c) u (cs ++ v) captures
    have hrest := ih (u ++ [c])
    rw [List.append_assoc] at hrest
    cases cs with
    | nil => exact hc
    | cons d cs => exact hc.seq hrest

theorem Reads.of_literal {r r' : Reach} (h : Reads (literal cs) r t r') : t = cs := by
  obtain ⟨hlength, hsees⟩ := h.sees_row (row_literal cs) []
  rw [List.append_nil, sees_only] at hsees
  rw [List.length_map] at hlength
  exact (hsees.eq_of_length hlength.symm).symm

end Literal

section Choice

variable {α : Type} {p q : Pattern} {fuel : Nat} {r : Reach} {next : Reach → Option α} {a : α}

theorem run_alt_of_some (h : p.run fuel r next = some a) : (alt p q).run fuel r next = some a := by
  rw [run, h]
  rfl

theorem run_alt_of_none (h : p.run fuel r next = none) : (alt p q).run fuel r next = q.run fuel r next := by
  rw [run, h]
  rfl

/-- A bounded repetition takes all characters of its set that are there, if it may. -/
theorem run_upTo_one_all {s : CharSet} {k : Nat} {u v x : Text} {captures : List Capture} (hx : ∀ c ∈ x, s c)
    (hk : x.length ≤ k) (hv : ∀ c ∈ v.head?, s c = false)
    (ha : next ⟨.amid (u ++ x) v, captures⟩ = some a) :
    (upTo k (one s)).run fuel ⟨.amid u (x ++ v), captures⟩ next = some a := by
  induction x generalizing u k with
  | nil =>
    rw [List.append_nil] at ha
    cases k with
    | zero => exact ha
    | succ k =>
      rw [upTo, maybe, run_alt_of_none, List.nil_append]
      · exact ha
      · rw [run, List.nil_append]
        refine run_one_eq_none fun c w hc hs => ?_
        rw [hv c (by rw [hc]; rfl)] at hs
        cases hs
  | cons c x ih =>
    obtain ⟨k, rfl⟩ := Nat.exists_eq_add_of_le' (Nat.le_of_add_left_le hk)
    obtain ⟨hc, hx⟩ := List.forall_mem_cons.mp hx
    have hrest := ih (u := u ++ [c]) (k := k) hx (Nat.le_of_succ_le_succ hk) (by rwa [List.append_assoc])
    rw [upTo, maybe]
    refine run_alt_of_some ?_
    rw [run, List.cons_append, run_one_cons hc]
    exact hrest

end Choice

section Search

variable {p : Pattern} {m : Match} {t u v w : Text} {fuel : Nat}

theorem searchFrom_of_matchAt (hm : p.matchAt fuel (.amid (u ++ w) v) = some m)
    (hnone : ∀ y z, w = y ++ z → z ≠ [] → p.matchAt fuel (.amid (u ++ y) (z ++ v)) = none) :
    p.searchFrom fuel u.reverse (w ++ v) u.length = some m := by
  induction w generalizing u with
  | nil =>
    rw [List.append_nil] at hm
    have hfirst : p.matchAt fuel ⟨u.reverse, v, u.length⟩ = some m := hm
    cases v with
    | nil => exact hfirst
    | cons c v =>
      rw [List.nil_append, searchFrom, hfirst]
      rfl
  | cons c w ih =>
    have hrest := ih (u := u ++ [c]) (by rw [List.append_assoc]; exact hm) fun y z hw hz => by
      have hlater := hnone (c :: y) z (by rw [hw]; rfl) hz
      rwa [List.append_assoc]
    have hfirst : p.matchAt fuel ⟨u.reverse, c :: (w ++ v), u.length⟩ = none := by
      have hhere := hnone [] (c :: w) rfl (List.cons_ne_nil c w)
      rwa [List.append_nil] at hhere
    rw [List.cons_append, searchFrom, hfirst]
    simpa using hrest

/-- A search takes a match if there is none in front of it. -/
theorem search?_of_matchAt (hm : p.matchAt (u ++ v).length (.amid u v) = some m)
    (hnone : ∀ y z, u = y ++ z → z ≠ [] → p.matchAt (u ++ v).length (.amid y (z ++ v)) = none) :
    p.search? (u ++ v) = some m :=
  searchFrom_of_matchAt (u := []) hm hnone

theorem search?_eq_none (h : ∀ u v, t = u ++ v → p.matchAt t.length (.amid u v) = none) :
    p.search? t = none := by
  rw [Option.eq_none_iff_forall_ne_some]
  intro m hm
  obtain ⟨u, v, ht, hmatch⟩ := exists_amid_of_search? hm
  rw [h u v ht] at hmatch
  cases hmatch

end Search

section Reading

variable {p : Pattern} {r r' : Reach} {t : Text}

/-- No set of the pattern has the character in it. -/
def avoids (c : Char) : Pattern → Bool
  | one s => !s c
  | seq p q | alt p q => p.avoids c && q.avoids c
  | many p | few p | group _ p => p.avoids c
  | empty | anchor _ | ahead _ | notAhead _ => true

/-- A character that no set of the pattern has in it is not read. -/
theorem Reads.not_mem {c : Char} (h : Reads p r t r') (hp : p.avoids c) : c ∉ t := by
  induction h with
  | one before rest pos captures hs =>
    intro hc
    obtain rfl := List.mem_singleton.mp hc
    simp only [avoids, hs] at hp
    cases hp
  | seq hread hrest ih ih' =>
    simp only [avoids, Bool.and_eq_true] at hp
    rw [List.mem_append, not_or]
    exact ⟨ih hp.1, ih' hp.2⟩
  | manyMore hread hrest ih ih' | fewMore hread hrest ih ih' =>
    rw [List.mem_append, not_or]
    exact ⟨ih hp, ih' hp⟩
  | left h ih =>
    simp only [avoids, Bool.and_eq_true] at hp
    exact ih hp.1
  | right h ih =>
    simp only [avoids, Bool.and_eq_true] at hp
    exact ih hp.2
  | group h ih => exact ih hp
  | _ => exact List.not_mem_nil

/-- Whatever way the pattern takes, it ends with the line. -/
def endsLine : Pattern → Bool
  | anchor .lineEnd => true
  | seq _ q => q.endsLine
  | _ => false

theorem Reads.rest_of_endsLine (h : Reads p r t r') (hp : p.endsLine) :
    r'.cursor.rest = [] ∨ r'.cursor.rest = ['\n'] := by
  induction h with
  | seq hread hrest ih ih' => exact ih' hp
  | anchor hholds =>
    rename_i a r
    cases a with
    | lineEnd =>
      simp only [Anchor.holds, Bool.or_eq_true, List.isEmpty_iff, beq_iff_eq] at hholds
      exact hholds
    | _ => cases hp
  | _ => cases hp

/-- Whatever way the pattern takes, the last character that it reads is such a one. -/
def EndsIn (s : Char → Prop) : Pattern → Prop
  | one u => ∀ c, u c → s c
  | seq p q => q.EndsIn s ∧ (q.consumes ∨ p.EndsIn s)
  | alt p q => p.EndsIn s ∧ q.EndsIn s
  | many p | few p | group _ p => p.EndsIn s
  | empty | anchor _ | ahead _ | notAhead _ => True

theorem Reads.last_of_endsIn {s : Char → Prop} (h : Reads p r t r') (hp : p.EndsIn s) : ∀ c ∈ t.getLast?, s c := by
  induction h with
  | one before rest pos captures hs =>
    intro c hc
    obtain rfl := Option.some.inj hc
    exact hp _ hs
  | @seq p q _ _ _ t u hread hrest ih ih' =>
    intro c hc
    rw [List.getLast?_append, Option.mem_def, Option.or_eq_some_iff] at hc
    rcases hc with hc | ⟨hnone, hc⟩
    · exact ih' hp.1 c hc
    · -- The second pattern has read nothing, so it is the first that the text ends with.
      exact ih (hp.2.resolve_left fun hq => hrest.ne_nil hq (List.getLast?_eq_none_iff.mp hnone)) c hc
  | manyMore hread hrest ih ih' | fewMore hread hrest ih ih' =>
    intro c hc
    rw [List.getLast?_append, Option.mem_def, Option.or_eq_some_iff] at hc
    rcases hc with hc | ⟨-, hc⟩
    · exact ih' hp c hc
    · exact ih hp c hc
  | left h ih => exact ih hp.1
  | right h ih => exact ih hp.2
  | group h ih => exact ih hp
  | _ => exact fun c hc => nomatch hc

/-- A line that the pattern reads to its end ends as the pattern does. -/
theorem last_of_occursIn {s : Char → Prop} (h : p.occursIn t) (hline : p.endsLine) (hconsumes : p.consumes)
    (hends : p.EndsIn s) : ∀ c ∈ t.getLast?, c = '\n' ∨ s c := by
  obtain ⟨m, hm⟩ := Option.isSome_iff_exists.mp h
  obtain ⟨u, v, rfl, hmatch⟩ := exists_amid_of_search? hm
  obtain ⟨w, hw⟩ := reads_of_matchAt hmatch
  have hv : v = w ++ m.stop.rest := hw.advance.1
  intro c hc
  rw [hv, ← List.append_assoc] at hc
  rcases hw.rest_of_endsLine hline with hr | hr
  · rw [hr, List.append_nil, List.getLast?_append, Option.mem_def, Option.or_eq_some_iff] at hc
    rcases hc with hc | ⟨hnone, -⟩
    · exact .inr (hw.last_of_endsIn hends c hc)
    · exact absurd (List.getLast?_eq_none_iff.mp hnone) (hw.ne_nil hconsumes)
  · rw [hr, List.getLast?_concat] at hc
    exact .inl (Option.some.inj hc).symm

theorem Reads.of_oneOf {ps : List Pattern} (hps : ps ≠ []) {r r' : Reach} {t : Text}
    (h : Reads (oneOf ps) r t r') : ∃ p ∈ ps, Reads p r t r' := by
  induction ps with
  | nil => exact absurd rfl hps
  | cons p ps ih =>
    cases ps with
    | nil => exact ⟨p, List.mem_cons_self .., h⟩
    | cons q ps =>
      cases h with
      | left h => exact ⟨p, List.mem_cons_self .., h⟩
      | right h =>
        obtain ⟨p', hp', hread⟩ := ih (List.cons_ne_nil q ps) h
        exact ⟨p', List.mem_cons_of_mem p hp', hread⟩

end Reading

section Accepting

/-- The pattern reads the text wherever that stands. -/
def Accepts (p : Pattern) (w : Text) : Prop :=
  ∀ u v captures, ∃ captures', Reads p ⟨.amid u (w ++ v), captures⟩ w ⟨.amid (u ++ w) v, captures'⟩

variable {p q : Pattern} {s : CharSet} {w x : Text}

theorem Accepts.seq (hp : p.Accepts w) (hq : q.Accepts x) : (Pattern.seq p q).Accepts (w ++ x) := by
  intro u v captures
  obtain ⟨captures', hw⟩ := hp u (x ++ v) captures
  obtain ⟨captures'', hx⟩ := hq (u ++ w) v captures'
  rw [List.append_assoc, ← List.append_assoc u]
  exact ⟨captures'', hw.seq hx⟩

theorem Accepts.left (h : p.Accepts w) : (alt p q).Accepts w := by
  intro u v captures
  obtain ⟨captures', hw⟩ := h u v captures
  exact ⟨captures', hw.left⟩

theorem Accepts.right (h : q.Accepts w) : (alt p q).Accepts w := by
  intro u v captures
  obtain ⟨captures', hw⟩ := h u v captures
  exact ⟨captures', hw.right⟩

theorem Accepts.group (n : Nat) (h : p.Accepts w) : (Pattern.group n p).Accepts w := by
  intro u v captures
  obtain ⟨captures', hw⟩ := h u v captures
  exact ⟨_, hw.group⟩

theorem accepts_literal (cs : Text) : (literal cs).Accepts cs :=
  fun u v captures => ⟨captures, Reads.literal_amid cs u v captures⟩

theorem accepts_many_one (h : ∀ c ∈ w, s c) : (many (one s)).Accepts w :=
  fun u v captures => ⟨captures, Reads.many_amid h u v captures⟩

theorem accepts_atLeastOnce_one (hne : w ≠ []) (h : ∀ c ∈ w, s c) : (atLeastOnce (one s)).Accepts w :=
  fun u v captures => ⟨captures, Reads.atLeastOnce_amid hne h u v captures⟩

/-- A pattern that accepts what stands ahead matches there. -/
theorem Accepts.isSome_matchAt {u v : Text} {fuel : Nat} (h : p.Accepts w) (hp : p.Direct)
    (hfuel : (w ++ v).length ≤ fuel) : (p.matchAt fuel (.amid u (w ++ v))).isSome := by
  obtain ⟨captures', hw⟩ := h u v []
  exact hw.isSome_run hp hfuel rfl

end Accepting

end Pattern
end DraftLint
