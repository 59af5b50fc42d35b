import DraftLint.Pattern.Build

/-!
# What a match reads

Matches as a relation between positions and the text between them, without the order of preference.  Every
match that a search finds is one, and its groups have read what their patterns match.
-/

namespace DraftLint.Pattern

/-- From one position the pattern can read a text and reach another.  What a negative look-ahead rules
out is not recorded. -/
inductive Reads : Pattern → Reach → Text → Reach → Prop where
  | empty (r : Reach) : Reads .empty r [] r
  | one {s : CharSet} {x : Char} (before rest : List Char) (pos : Nat) (captures : List Capture)
      (h : s x) :
      Reads (.one s) ⟨⟨before, x :: rest, pos⟩, captures⟩ [x] ⟨⟨x :: before, rest, pos + 1⟩, captures⟩
  | seq {p q : Pattern} {r r' r'' : Reach} {t u : Text} (hp : Reads p r t r') (hq : Reads q r' u r'') :
      Reads (.seq p q) r (t ++ u) r''
  | left {p q : Pattern} {r r' : Reach} {t : Text} (h : Reads p r t r') : Reads (.alt p q) r t r'
  | right {p q : Pattern} {r r' : Reach} {t : Text} (h : Reads q r t r') : Reads (.alt p q) r t r'
  | manyDone (p : Pattern) (r : Reach) : Reads (.many p) r [] r
  | manyMore {p : Pattern} {r r' r'' : Reach} {t u : Text} (hp : Reads p r t r')
      (hq : Reads (.many p) r' u r'') : Reads (.many p) r (t ++ u) r''
  | fewDone (p : Pattern) (r : Reach) : Reads (.few p) r [] r
  | fewMore {p : Pattern} {r r' r'' : Reach} {t u : Text} (hp : Reads p r t r')
      (hq : Reads (.few p) r' u r'') : Reads (.few p) r (t ++ u) r''
  | group {n : Nat} {p : Pattern} {r r' : Reach} {t : Text} (h : Reads p r t r') :
      Reads (.group n p) r t { r' with captures := ⟨n, r.cursor, r'.cursor⟩ :: r'.captures }
  | anchor {a : Anchor} {r : Reach} (h : a.holds r.cursor) : Reads (.anchor a) r [] r
  | ahead {p : Pattern} {r r' : Reach} {t : Text} (h : Reads p r t r') : Reads (.ahead p) r [] r
  | notAhead (p : Pattern) (r : Reach) : Reads (.notAhead p) r [] r

namespace Reads

section Run

variable {α : Type} {p : Pattern} {r : Reach} {next : Reach → Option α} {a : α}

/-- A round of a repetition that leads on to a result. -/
theorem of_round {body : Reach → (Reach → Option α) → Option α} {again : Reach → Option α}
    (hbody : ∀ r next, body r next = some a → ∃ t r', Reads p r t r' ∧ next r' = some a)
    (h : (body r fun r' => if r.cursor.pos < r'.cursor.pos then again r' else none) = some a) :
    ∃ t r', Reads p r t r' ∧ again r' = some a := by
  obtain ⟨t, r', ht, hr⟩ := hbody _ _ h
  split at hr
  · exact ⟨t, r', ht, hr⟩
  · cases hr

theorem of_greedy {body : Reach → (Reach → Option α) → Option α}
    (hbody : ∀ r next, body r next = some a → ∃ t r', Reads p r t r' ∧ next r' = some a) (fuel : Nat)
    (h : Reach.greedy body next fuel r = some a) :
    ∃ t r', Reads (.many p) r t r' ∧ next r' = some a := by
  induction fuel generalizing r with
  | zero => exact ⟨[], r, .manyDone p r, h⟩
  | succ fuel ih =>
    rw [Reach.greedy, Option.orElse_eq_orElse, Option.orElse_eq_or, Option.or_eq_some_iff] at h
    rcases h with h | ⟨-, h⟩
    · obtain ⟨t, r', ht, hr⟩ := of_round hbody h
      obtain ⟨u, r'', hu, hn⟩ := ih hr
      exact ⟨t ++ u, r'', ht.manyMore hu, hn⟩
    · exact ⟨[], r, .manyDone p r, h⟩

theorem of_lazy {body : Reach → (Reach → Option α) → Option α}
    (hbody : ∀ r next, body r next = some a → ∃ t r', Reads p r t r' ∧ next r' = some a) (fuel : Nat)
    (h : Reach.lazy body next fuel r = some a) :
    ∃ t r', Reads (.few p) r t r' ∧ next r' = some a := by
  induction fuel generalizing r with
  | zero => exact ⟨[], r, .fewDone p r, h⟩
  | succ fuel ih =>
    rw [Reach.lazy, Option.orElse_eq_orElse, Option.orElse_eq_or, Option.or_eq_some_iff] at h
    rcases h with h | ⟨-, h⟩
    · exact ⟨[], r, .fewDone p r, h⟩
    · obtain ⟨t, r', ht, hr⟩ := of_round hbody h
      obtain ⟨u, r'', hu, hn⟩ := ih hr
      exact ⟨t ++ u, r'', ht.fewMore hu, hn⟩

/-- A result that is found comes from a position that can be reached. -/
theorem of_run (fuel : Nat) (h : p.run fuel r next = some a) :
    ∃ t r', Reads p r t r' ∧ next r' = some a := by
  induction p generalizing α r next a with
  | empty => exact ⟨[], r, .empty r, h⟩
  | one s =>
    obtain ⟨⟨before, rest, pos⟩, captures⟩ := r
    cases rest with
    | nil => simp [Pattern.run, Cursor.step?] at h
    | cons x rest =>
      by_cases hs : s x = true
      · simp only [Pattern.run, Cursor.step?, hs, if_true] at h
        exact ⟨[x], _, .one before rest pos captures hs, h⟩
      · simp [Pattern.run, Cursor.step?, hs] at h
  | seq p q hp hq =>
    obtain ⟨t, r', ht, hr⟩ := hp h
    obtain ⟨u, r'', hu, hn⟩ := hq hr
    exact ⟨t ++ u, r'', ht.seq hu, hn⟩
  | alt p q hp hq =>
    rw [Pattern.run, Option.orElse_eq_orElse, Option.orElse_eq_or, Option.or_eq_some_iff] at h
    rcases h with h | ⟨-, h⟩
    · obtain ⟨t, r', ht, hn⟩ := hp h
      exact ⟨t, r', ht.left, hn⟩
    · obtain ⟨t, r', ht, hn⟩ := hq h
      exact ⟨t, r', ht.right, hn⟩
  | many p hp => exact of_greedy (fun r next => hp) fuel h
  | few p hp => exact of_lazy (fun r next => hp) fuel h
  | group n p hp =>
    obtain ⟨t, r', ht, hn⟩ := hp h
    exact ⟨t, _, ht.group, hn⟩
  | anchor b =>
    rw [Pattern.run] at h
    split at h
    · rename_i hb
      exact ⟨[], r, .anchor hb, h⟩
    · cases h
  | ahead p hp =>
    rw [Pattern.run] at h
    split at h
    · rename_i hs
      obtain ⟨r', hr⟩ := Option.isSome_iff_exists.mp hs
      obtain ⟨t, r'', ht, -⟩ := hp hr
      exact ⟨[], r, ht.ahead, h⟩
    · cases h
  | notAhead p hp =>
    rw [Pattern.run] at h
    split at h
    · cases h
    · exact ⟨[], r, .notAhead p r, h⟩

end Run

section Text

variable {p : Pattern} {r r' : Reach} {t : Text}

/-- The text read is what lies between the two positions. -/
theorem advance (h : Reads p r t r') :
    r.cursor.rest = t ++ r'.cursor.rest ∧ r'.cursor.pos = r.cursor.pos + t.length := by
  induction h with
  | empty r | manyDone p r | fewDone p r | notAhead p r => exact ⟨rfl, rfl⟩
  | one before rest pos captures h => exact ⟨rfl, rfl⟩
  | seq hp hq ihp ihq | manyMore hp hq ihp ihq | fewMore hp hq ihp ihq =>
    obtain ⟨hrest, hpos⟩ := ihp
    obtain ⟨hrest', hpos'⟩ := ihq
    constructor
    · rw [hrest, hrest', List.append_assoc]
    · rw [hpos', hpos, List.length_append, Nat.add_assoc]
  | left h ih | right h ih | group h ih => exact ih
  | anchor h => exact ⟨rfl, rfl⟩
  | ahead h ih => exact ⟨rfl, rfl⟩

theorem between_eq (h : Reads p r t r') : Match.between r.cursor r'.cursor = t := by
  obtain ⟨hrest, hpos⟩ := h.advance
  rw [Match.between, hrest, hpos, Nat.add_sub_cancel_left, List.take_left]

theorem of_many_one {s : CharSet} (h : Reads (.many (.one s)) r t r') : ∀ c ∈ t, s c := by
  generalize hm : Pattern.many (.one s) = m at h
  induction h with
  | manyDone p r => simp
  | manyMore hp hq ihp ihq =>
    obtain rfl := Pattern.many.inj hm
    cases hp with
    | one before rest pos captures hs =>
      intro c hc
      rcases List.mem_cons.mp hc with rfl | hc
      · exact hs
      · exact ihq rfl c hc
  | _ => exact Pattern.noConfusion hm

theorem of_seq {p q : Pattern} (h : Reads (.seq p q) r t r') :
    ∃ u v s, t = u ++ v ∧ Reads p r u s ∧ Reads q s v r' := by
  cases h with
  | seq hp hq => exact ⟨_, _, _, rfl, hp, hq⟩

theorem of_maybe {p : Pattern} (h : Reads (.maybe p) r t r') : t = [] ∨ Reads p r t r' := by
  cases h with
  | left h => exact .inr h
  | right h =>
    cases h
    exact .inl rfl

theorem of_group {n : Nat} {p : Pattern} (h : Reads (.group n p) r t r') :
    ∃ s, Reads p r t s ∧ r' = { s with captures := ⟨n, r.cursor, s.cursor⟩ :: s.captures } := by
  cases h with
  | group h => exact ⟨_, h, rfl⟩

theorem of_one {s : CharSet} (h : Reads (.one s) r t r') : ∃ c, t = [c] ∧ s c := by
  cases h with
  | one before rest pos captures hs => exact ⟨_, rfl, hs⟩

theorem of_times_one {s : CharSet} {n : Nat} (h : Reads (.times n (.one s)) r t r') :
    t.length = n ∧ ∀ c ∈ t, s c := by
  induction n generalizing r t with
  | zero =>
    cases h
    exact ⟨rfl, by simp⟩
  | succ n ih =>
    cases n with
    | zero =>
      obtain ⟨c, rfl, hc⟩ := of_one h
      exact ⟨rfl, by simpa using hc⟩
    | succ n =>
      cases h with
      | seq hp hq =>
        obtain ⟨c, rfl, hc⟩ := of_one hp
        obtain ⟨hlength, hall⟩ := ih hq
        exact ⟨by simp [hlength], List.forall_mem_cons.mpr ⟨hc, hall⟩⟩

theorem of_upTo_one {s : CharSet} {n : Nat} (h : Reads (.upTo n (.one s)) r t r') :
    t.length ≤ n ∧ ∀ c ∈ t, s c := by
  induction n generalizing r t with
  | zero =>
    cases h
    exact ⟨Nat.le_refl 0, by simp⟩
  | succ n ih =>
    cases h with
    | left h =>
      cases h with
      | seq hp hq =>
        obtain ⟨c, rfl, hc⟩ := of_one hp
        obtain ⟨hlength, hall⟩ := ih hq
        exact ⟨Nat.succ_le_succ hlength, List.forall_mem_cons.mpr ⟨hc, hall⟩⟩
    | right h =>
      cases h
      exact ⟨Nat.zero_le _, by simp⟩

theorem of_between_one {s : CharSet} {lo extra : Nat} (h : Reads (.between lo extra (.one s)) r t r') :
    lo ≤ t.length ∧ t.length ≤ lo + extra ∧ ∀ c ∈ t, s c := by
  cases h with
  | seq hp hq =>
    obtain ⟨hlo, hfirst⟩ := of_times_one hp
    obtain ⟨hextra, hrest⟩ := of_upTo_one hq
    rw [List.length_append]
    exact ⟨by omega, by omega, List.forall_mem_append.mpr ⟨hfirst, hrest⟩⟩

theorem of_atLeast_one {s : CharSet} {n : Nat} (h : Reads (.atLeast n (.one s)) r t r') :
    n ≤ t.length ∧ ∀ c ∈ t, s c := by
  cases h with
  | seq hp hq =>
    obtain ⟨hn, hfirst⟩ := of_times_one hp
    rw [List.length_append]
    exact ⟨by omega, List.forall_mem_append.mpr ⟨hfirst, of_many_one hq⟩⟩

theorem of_atLeastOnce_one {s : CharSet} (h : Reads (.atLeastOnce (.one s)) r t r') :
    t ≠ [] ∧ ∀ c ∈ t, s c := by
  cases h with
  | seq hp hq =>
    cases hp with
    | one before rest pos captures hs =>
      refine ⟨by simp, ?_⟩
      intro c hc
      rcases List.mem_cons.mp hc with rfl | hc
      · exact hs
      · exact of_many_one hq c hc

theorem of_lineEnd (h : Reads (.anchor .lineEnd) r t r') :
    t = [] ∧ r' = r ∧ (r.cursor.rest = [] ∨ r.cursor.rest = ['\n']) := by
  cases h with
  | anchor h =>
    simp only [Anchor.holds, Bool.or_eq_true, List.isEmpty_iff, beq_iff_eq] at h
    exact ⟨rfl, rfl, h⟩

end Text

end Reads

/-- Every group of the pattern encloses such a pattern. -/
def Encloses (q : Nat → Pattern → Prop) : Pattern → Prop
  | seq p p' | alt p p' => p.Encloses q ∧ p'.Encloses q
  | many p | few p => p.Encloses q
  | group n p => q n p ∧ p.Encloses q
  | empty | one _ | anchor _ | ahead _ | notAhead _ => True

/-- What a group captures was read by the pattern that it encloses. -/
theorem mem_captures {q : Nat → Pattern → Prop} {p : Pattern} {r r' : Reach} {t : Text}
    (h : Reads p r t r') (hq : p.Encloses q) {g : Capture} (hg : g ∈ r'.captures) :
    g ∈ r.captures ∨ ∃ p' s s', q g.group p' ∧ Reads p' s (Match.between g.start g.stop) s' := by
  induction h with
  | empty r | manyDone p r | fewDone p r | notAhead p r => exact Or.inl hg
  | one before rest pos captures h => exact Or.inl hg
  | seq hp hr ihp ihr =>
    rcases ihr hq.2 hg with hg | hg
    · exact ihp hq.1 hg
    · exact Or.inr hg
  | manyMore hp hr ihp ihr | fewMore hp hr ihp ihr =>
    rcases ihr hq hg with hg | hg
    · exact ihp hq hg
    · exact Or.inr hg
  | left h ih => exact ih hq.1 hg
  | right h ih => exact ih hq.2 hg
  | @group n p r r' t h ih =>
    rcases List.mem_cons.mp hg with rfl | hg
    · refine Or.inr ⟨p, r, r', hq.1, ?_⟩
      rw [h.between_eq]
      exact h
    · exact ih hq.2 hg
  | anchor h => exact Or.inl hg
  | ahead h ih => exact Or.inl hg

/-- Whatever way the pattern takes, it passes the group. -/
def Captures (n : Nat) : Pattern → Prop
  | seq p q => p.Captures n ∨ q.Captures n
  | alt p q => p.Captures n ∧ q.Captures n
  | group m p => m = n ∨ p.Captures n
  | empty | one _ | many _ | few _ | anchor _ | ahead _ | notAhead _ => False

section Capture

variable {p : Pattern} {r r' : Reach} {t : Text}

theorem Reads.captures_subset (h : Reads p r t r') : r.captures ⊆ r'.captures := by
  induction h with
  | seq hp hq ihp ihq | manyMore hp hq ihp ihq | fewMore hp hq ihp ihq => exact List.Subset.trans ihp ihq
  | left h ih | right h ih => exact ih
  | group h ih => exact List.subset_cons_of_subset _ ih
  | _ => exact List.Subset.refl _

theorem Reads.exists_capture {n : Nat} (h : Reads p r t r') (hn : p.Captures n) :
    ∃ g ∈ r'.captures, g.group = n := by
  induction h with
  | seq hp hq ihp ihq =>
    rcases hn with hn | hn
    · obtain ⟨g, hg, hgroup⟩ := ihp hn
      exact ⟨g, hq.captures_subset hg, hgroup⟩
    · exact ihq hn
  | left h ih => exact ih hn.1
  | right h ih => exact ih hn.2
  | group h ih =>
    rcases hn with rfl | hn
    · exact ⟨_, List.mem_cons_self .., rfl⟩
    · obtain ⟨g, hg, hgroup⟩ := ih hn
      exact ⟨g, List.mem_cons_of_mem _ hg, hgroup⟩
  | _ => exact hn.elim

end Capture

section Search

variable {p : Pattern} {m : Match} {t : Text}

theorem reads_of_matchAt {fuel : Nat} {c : Cursor} (h : p.matchAt fuel c = some m) :
    ∃ u, Reads p ⟨c, []⟩ u ⟨m.stop, m.captures⟩ := by
  obtain ⟨u, r', hu, hr⟩ := Reads.of_run fuel h
  obtain rfl := Option.some.inj hr
  exact ⟨u, hu⟩

theorem reads_of_match? (h : p.match? t = some m) :
    ∃ u, Reads p ⟨.start t, []⟩ u ⟨m.stop, m.captures⟩ :=
  reads_of_matchAt h

theorem reads_of_searchFrom {fuel : Nat} {before rest : List Char} {pos : Nat}
    (h : p.searchFrom fuel before rest pos = some m) :
    ∃ c u, Reads p ⟨c, []⟩ u ⟨m.stop, m.captures⟩ := by
  induction rest generalizing before pos with
  | nil => exact ⟨_, reads_of_matchAt h⟩
  | cons x rest ih =>
    rw [searchFrom, Option.orElse_eq_orElse, Option.orElse_eq_or, Option.or_eq_some_iff] at h
    rcases h with h | ⟨-, h⟩
    · exact ⟨_, reads_of_matchAt h⟩
    · exact ih h

theorem reads_of_mem_scanFrom {fuel skip : Nat} {before rest : List Char} {pos : Nat}
    (h : m ∈ p.scanFrom fuel skip before rest pos) :
    ∃ c u, Reads p ⟨c, []⟩ u ⟨m.stop, m.captures⟩ := by
  induction rest generalizing skip before pos with
  | nil =>
    cases skip with
    | zero =>
      rw [scanFrom, Option.mem_toList] at h
      exact ⟨_, reads_of_matchAt h⟩
    | succ skip => simp [scanFrom] at h
  | cons x rest ih =>
    cases skip with
    | zero =>
      rw [scanFrom] at h
      split at h
      · rename_i m' hm
        rcases List.mem_cons.mp h with rfl | h
        · exact ⟨_, reads_of_matchAt hm⟩
        · exact ih h
      · exact ih h
    | succ skip =>
      rw [scanFrom] at h
      exact ih h

theorem reads_of_mem_scan (h : m ∈ p.scan t) : ∃ c u, Reads p ⟨c, []⟩ u ⟨m.stop, m.captures⟩ :=
  reads_of_mem_scanFrom h

section Groups

variable {c : Cursor} {v : Text} {n : Nat} {u : Text}

/-- A group of a match has read what its pattern matches. -/
theorem group?_of_reads {q : Nat → Pattern → Prop} (hq : p.Encloses q)
    (h : Reads p ⟨c, []⟩ v ⟨m.stop, m.captures⟩) (hg : m.group? n = some u) :
    ∃ p' s s', q n p' ∧ Reads p' s u s' := by
  unfold Match.group? at hg
  obtain ⟨g, hfind, rfl⟩ := Option.map_eq_some_iff.mp hg
  have hn : g.group = n := by simpa using List.find?_some hfind
  subst hn
  rcases mem_captures h hq (List.mem_of_find?_eq_some hfind) with hnil | hread
  · simp at hnil
  · exact hread

theorem group?_of_mem_scan {q : Nat → Pattern → Prop} (hq : p.Encloses q) (h : m ∈ p.scan t)
    (hg : m.group? n = some u) : ∃ p' s s', q n p' ∧ Reads p' s u s' := by
  obtain ⟨c, v, hv⟩ := reads_of_mem_scan h
  exact group?_of_reads hq hv hg

/-- A group that is passed in any case has something to show. -/
theorem exists_group? (hn : p.Captures n) (h : Reads p ⟨c, []⟩ v ⟨m.stop, m.captures⟩) :
    ∃ u, m.group? n = some u := by
  obtain ⟨g, hg, hgroup⟩ := h.exists_capture hn
  have hfind : (m.captures.find? (·.group == n)).isSome := by
    rw [List.find?_isSome]
    exact ⟨g, hg, by simpa using hgroup⟩
  obtain ⟨g', hg'⟩ := Option.isSome_iff_exists.mp hfind
  exact ⟨_, by rw [Match.group?, hg', Option.map_some]⟩

end Groups

end Search

end DraftLint.Pattern
