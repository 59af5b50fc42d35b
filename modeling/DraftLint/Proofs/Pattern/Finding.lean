import DraftLint.Proofs.Pattern.Matching

/-!
# What a match finds

A pattern that can read the text ahead is found to match there, if every round of a repetition passes a character and
nothing is ruled out: as many rounds as there are characters ahead are then enough.
-/

namespace DraftLint.Pattern

/-- Whatever way the pattern takes, it reads a character. -/
def consumes : Pattern → Bool
  | one _ => true
  | seq p q => p.consumes || q.consumes
  | alt p q => p.consumes && q.consumes
  | group _ p => p.consumes
  | empty | many _ | few _ | anchor _ | ahead _ | notAhead _ => false

theorem Reads.ne_nil {p : Pattern} {r r' : Reach} {t : Text} (h : Reads p r t r') (hp : p.consumes) : t ≠ [] := by
  induction h with
  | one before rest pos captures hs => exact List.cons_ne_nil _ _
  | seq hread hrest ih ih' =>
    rw [consumes, Bool.or_eq_true] at hp
    rcases hp with hp | hp
    · exact List.append_ne_nil_of_left_ne_nil (ih hp) _
    · exact List.append_ne_nil_of_right_ne_nil _ (ih' hp)
  | left h ih =>
    rw [consumes, Bool.and_eq_true] at hp
    exact ih hp.1
  | right h ih =>
    rw [consumes, Bool.and_eq_true] at hp
    exact ih hp.2
  | group h ih => exact ih hp
  | _ => cases hp

/-- Every round of a repetition passes a character, and nothing is ruled out. -/
def Steady : Pattern → Prop
  | seq p q | alt p q => p.Steady ∧ q.Steady
  | many p | few p => p.consumes ∧ p.Steady
  | group _ p | ahead p => p.Steady
  | notAhead _ => False
  | empty | one _ | anchor _ => True

/-- Only single characters are repeated, and nothing is ruled out. -/
def Direct : Pattern → Prop
  | seq p q | alt p q => p.Direct ∧ q.Direct
  | many p | few p => ∃ s, p = one s
  | group _ p | ahead p => p.Direct
  | notAhead _ => False
  | empty | one _ | anchor _ => True

theorem Direct.steady {p : Pattern} (h : p.Direct) : p.Steady := by
  induction p with
  | seq p q ihp ihq | alt p q ihp ihq => exact ⟨ihp h.1, ihq h.2⟩
  | many p ih | few p ih =>
    obtain ⟨s, rfl⟩ := h
    exact ⟨rfl, trivial⟩
  | group n p ih | ahead p ih => exact ih h
  | notAhead p => exact h.elim
  | empty | one s | anchor a => trivial

section Counted

variable {p : Pattern}

theorem Steady.upTo (h : p.Steady) : (n : Nat) → (upTo n p).Steady
  | 0 => trivial
  | n + 1 => ⟨⟨h, Steady.upTo h n⟩, trivial⟩

theorem Steady.times (h : p.Steady) : (n : Nat) → (times n p).Steady
  | 0 => trivial
  | 1 => h
  | n + 2 => ⟨h, Steady.times h (n + 1)⟩

theorem Steady.between (h : p.Steady) (lo extra : Nat) : (between lo extra p).Steady :=
  ⟨h.times lo, h.upTo extra⟩

end Counted

theorem isSome_orElse {α : Type} {o o' : Option α} : (o <|> o').isSome ↔ o.isSome ∨ o'.isSome := by
  rw [Option.orElse_eq_orElse, Option.orElse_eq_or, Option.isSome_or, Bool.or_eq_true]

/-- A greedy repetition can always be left. -/
theorem isSome_run_many {α : Type} {p : Pattern} {r : Reach} {next : Reach → Option α} (fuel : Nat)
    (h : (next r).isSome) : ((many p).run fuel r next).isSome := by
  rw [run]
  cases fuel with
  | zero => exact h
  | succ fuel =>
    rw [Reach.greedy, isSome_orElse]
    exact .inr h

namespace Reads

variable {p : Pattern} {r r' : Reach} {t : Text}

theorem length_rest_le (h : Reads p r t r') : r'.cursor.rest.length ≤ r.cursor.rest.length := by
  rw [h.advance.1, List.length_append]
  exact Nat.le_add_left _ _

section Rounds

variable {α : Type} {body : Reach → (Reach → Option α) → Option α} {next : Reach → Option α} {fuel : Nat}

/-- A round that passes characters leaves fewer of them ahead, and is told from one that does not. -/
theorem advance_of_consumes (h : Reads p r t r') (hp : p.consumes) (hfuel : r.cursor.rest.length ≤ fuel) :
    ∃ k, fuel = k + 1 ∧ r'.cursor.rest.length ≤ k ∧ r.cursor.pos < r'.cursor.pos := by
  obtain ⟨hrest, hpos⟩ := h.advance
  have hlength := List.length_pos_iff.mpr (h.ne_nil hp)
  rw [hrest, List.length_append] at hfuel
  obtain ⟨k, rfl⟩ := Nat.exists_eq_add_of_le' (Nat.le_trans (Nat.le_trans hlength (Nat.le_add_right ..)) hfuel)
  exact ⟨k, rfl, by omega, by omega⟩

/-- If every round succeeds that leads on to success, so does a repetition with as many rounds. -/
theorem isSome_greedy (h : Reads (.many p) r t r') (hp : p.consumes) (hfuel : r.cursor.rest.length ≤ fuel)
    (hbody : ∀ s u s' next', Reads p s u s' → s.cursor.rest.length ≤ r.cursor.rest.length → (next' s').isSome →
      (body s next').isSome) (hnext : (next r').isSome) : (Reach.greedy body next fuel r).isSome := by
  generalize hm : Pattern.many p = m at h
  induction h generalizing fuel with
  | manyDone p r =>
    cases fuel with
    | zero => exact hnext
    | succ fuel =>
      rw [Reach.greedy, isSome_orElse]
      exact .inr hnext
  | manyMore hround hmore ih ih' =>
    obtain rfl := Pattern.many.inj hm
    obtain ⟨k, rfl, hk, hpos⟩ := hround.advance_of_consumes hp hfuel
    rw [Reach.greedy, isSome_orElse]
    refine .inl (hbody _ _ _ _ hround (Nat.le_refl _) ?_)
    rw [if_pos hpos]
    exact ih' hk (fun s u s' next' hs hle => hbody s u s' next' hs (Nat.le_trans hle hround.length_rest_le)) hnext rfl
  | _ => exact Pattern.noConfusion hm

/-- The same for rounds that are put off. -/
theorem isSome_lazy (h : Reads (.few p) r t r') (hp : p.consumes) (hfuel : r.cursor.rest.length ≤ fuel)
    (hbody : ∀ s u s' next', Reads p s u s' → s.cursor.rest.length ≤ r.cursor.rest.length → (next' s').isSome →
      (body s next').isSome) (hnext : (next r').isSome) : (Reach.lazy body next fuel r).isSome := by
  generalize hm : Pattern.few p = m at h
  induction h generalizing fuel with
  | fewDone p r =>
    cases fuel with
    | zero => exact hnext
    | succ fuel =>
      rw [Reach.lazy, isSome_orElse]
      exact .inl hnext
  | fewMore hround hmore ih ih' =>
    obtain rfl := Pattern.few.inj hm
    obtain ⟨k, rfl, hk, hpos⟩ := hround.advance_of_consumes hp hfuel
    rw [Reach.lazy, isSome_orElse]
    refine .inr (hbody _ _ _ _ hround (Nat.le_refl _) ?_)
    rw [if_pos hpos]
    exact ih' hk (fun s u s' next' hs hle => hbody s u s' next' hs (Nat.le_trans hle hround.length_rest_le)) hnext rfl
  | _ => exact Pattern.noConfusion hm

end Rounds

/-- If what follows succeeds at a position that can be reached, the run has a result. -/
theorem isSome_run_of_steady {α : Type} {fuel : Nat} {next : Reach → Option α} (h : Reads p r t r')
    (hp : p.Steady) (hfuel : r.cursor.rest.length ≤ fuel) (hnext : (next r').isSome) :
    (p.run fuel r next).isSome := by
  induction p generalizing α r t r' next with
  | empty =>
    cases h
    exact hnext
  | one s =>
    cases h with
    | one before rest pos captures hs =>
      simp only [Pattern.run, Cursor.step?, hs, if_true]
      exact hnext
  | seq p q ihp ihq =>
    cases h with
    | seq hread hread' =>
      exact ihp hread hp.1 hfuel (ihq hread' hp.2 (Nat.le_trans hread.length_rest_le hfuel) hnext)
  | alt p q ihp ihq =>
    rw [Pattern.run, isSome_orElse]
    cases h with
    | left h => exact .inl (ihp h hp.1 hfuel hnext)
    | right h => exact .inr (ihq h hp.2 hfuel hnext)
  | many p ih =>
    exact h.isSome_greedy hp.1 hfuel (fun s u s' next' hs hle => ih hs hp.2 (Nat.le_trans hle hfuel)) hnext
  | few p ih =>
    exact h.isSome_lazy hp.1 hfuel (fun s u s' next' hs hle => ih hs hp.2 (Nat.le_trans hle hfuel)) hnext
  | group n p ih =>
    cases h with
    | group h => exact ih h hp hfuel hnext
  | anchor a =>
    cases h with
    | anchor h =>
      rw [Pattern.run, if_pos h]
      exact hnext
  | ahead p ih =>
    cases h with
    | ahead h =>
      rw [Pattern.run, if_pos (ih h hp hfuel rfl)]
      exact hnext
  | notAhead p => exact hp.elim

theorem isSome_run {α : Type} {fuel : Nat} {next : Reach → Option α} (h : Reads p r t r')
    (hp : p.Direct) (hfuel : r.cursor.rest.length ≤ fuel) (hnext : (next r').isSome) :
    (p.run fuel r next).isSome :=
  h.isSome_run_of_steady hp.steady hfuel hnext

/-- A run of characters of a set can be read by its repetition. -/
theorem many_one {s : CharSet} {u : Text} (h : ∀ c ∈ u, s c) (before rest : List Char) (pos : Nat)
    (captures : List Capture) :
    Reads (.many (.one s)) ⟨⟨before, u ++ rest, pos⟩, captures⟩ u
      ⟨⟨u.reverse ++ before, rest, pos + u.length⟩, captures⟩ := by
  induction u generalizing before pos with
  | nil => exact .manyDone _ _
  | cons c u ih =>
    have hrest := ih (fun x hx => h x (List.mem_cons_of_mem _ hx)) (c :: before) (pos + 1)
    have hread := (Reads.one before (u ++ rest) pos captures (h c (List.mem_cons_self ..))).manyMore hrest
    rw [List.reverse_cons, List.append_assoc, List.length_cons, Nat.add_comm u.length, ← Nat.add_assoc]
    exact hread

end Reads

/-- A pattern that can read the start of a text matches there. -/
theorem isSome_match? {p : Pattern} {r : Reach} {t u : Text} (h : Reads p ⟨.start t, []⟩ u r)
    (hp : p.Direct) : (p.match? t).isSome :=
  h.isSome_run hp (Nat.le_refl _) rfl

end DraftLint.Pattern
