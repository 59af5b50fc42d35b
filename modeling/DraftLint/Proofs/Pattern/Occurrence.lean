import DraftLint.Proofs.Pattern.Replacing
import DraftLint.Proofs.Pattern.Scanning
import DraftLint.Proofs.Text.Words
import Mathlib.Data.List.Find

/-!
# Where a pattern occurs

The offsets at which a pattern matches in a text.  A search stops at the first of them.  A pattern without repetitions
occurs where one of its ways is seen ahead, whatever stands around, and if no way of it begins or ends in a blank, then
blanks around a text do not matter to it.
-/

namespace DraftLint.Pattern

section Offsets

variable {p : Pattern} {t u v : Text} {k : Nat}

/-- The pattern matches in the text behind its first `k` characters. -/
def matchesAt (p : Pattern) (t : Text) (k : Nat) : Bool :=
  (p.matchAt t.length (.amid (t.take k) (t.drop k))).isSome

/-- The numbers of characters in front of the matches of a pattern. -/
def offsets (p : Pattern) (t : Text) : List Nat :=
  (List.range (t.length + 1)).filter (p.matchesAt t)

theorem mem_offsets : k ∈ p.offsets t ↔ k ≤ t.length ∧ p.matchesAt t k := by
  rw [offsets, List.mem_filter, List.mem_range, Nat.lt_succ_iff]

theorem matchesAt_length (u v : Text) :
    p.matchesAt (u ++ v) u.length = (p.matchAt (u ++ v).length (.amid u v)).isSome := by
  rw [matchesAt, List.take_left, List.drop_left]

theorem occursIn_iff_offsets : p.occursIn t ↔ p.offsets t ≠ [] := by
  rw [occursIn_iff]
  constructor
  · rintro ⟨u, v, rfl, h⟩
    refine List.ne_nil_of_mem (mem_offsets.mpr ⟨?_, (matchesAt_length u v).trans h⟩)
    rw [List.length_append]
    exact Nat.le_add_right _ _
  · intro h
    obtain ⟨k, hk⟩ := List.exists_mem_of_ne_nil _ h
    exact ⟨t.take k, t.drop k, (List.take_append_drop k t).symm, (mem_offsets.mp hk).2⟩

/-- A search finds the first match. -/
theorem start_of_search? (p : Pattern) (t : Text) : (p.search? t).map (·.start.pos) = (p.offsets t).head? := by
  rw [offsets, List.head?_filter]
  cases hfind : (List.range (t.length + 1)).find? (p.matchesAt t) with
  | none =>
    have hnone : p.offsets t = [] := by
      rw [offsets, List.filter_eq_nil_iff]
      exact List.find?_eq_none.mp hfind
    have hoccurs : ¬p.occursIn t := fun h => occursIn_iff_offsets.mp h hnone
    rw [occursIn, Option.not_isSome_iff_eq_none] at hoccurs
    rw [hoccurs, Option.map_none]
  | some k =>
    obtain ⟨hk, hmem, hfirst⟩ := List.find?_range_eq_some.mp hfind
    have hle : k ≤ t.length := Nat.lt_succ_iff.mp (List.mem_range.mp hmem)
    obtain ⟨m, hm⟩ := Option.isSome_iff_exists.mp hk
    have hlength : (t.take k).length = k := List.length_take_of_le hle
    have hsplit := List.take_append_drop k t
    have hsearch : p.search? (t.take k ++ t.drop k) = some m := by
      refine search?_of_matchAt (by rwa [hsplit]) fun y z hyz hz => ?_
      have hlt : y.length < k := by
        rw [← hlength, hyz, List.length_append]
        exact Nat.lt_add_of_pos_right (List.length_pos_of_ne_nil hz)
      have hnot := hfirst y.length hlt
      rw [← hsplit, hyz, List.append_assoc, matchesAt_length, Bool.not_eq_true', Option.isSome_eq_false_iff,
        Option.isNone_iff_eq_none, ← List.append_assoc, ← hyz] at hnot
      exact hnot
    rw [hsplit] at hsearch
    rw [hsearch, Option.map_some, start_of_matchAt hm]
    exact congrArg some hlength

theorem head?_scanFrom (p : Pattern) (fuel : Nat) (before rest : List Char) (pos : Nat) :
    (p.scanFrom fuel 0 before rest pos).head? = p.searchFrom fuel before rest pos := by
  induction rest generalizing before pos with
  | nil => rw [scanFrom, searchFrom, Option.head?_toList]
  | cons c rest ih =>
    rw [scanFrom, searchFrom]
    cases p.matchAt fuel ⟨before, c :: rest, pos⟩ with
    | none => exact ih (c :: before) (pos + 1)
    | some m => rfl

/-- A scan finds something exactly if the pattern occurs. -/
theorem scan_eq_nil_iff : p.scan t = [] ↔ p.occursIn t = false := by
  rw [← List.head?_eq_none_iff, scan, head?_scanFrom, occursIn, search?, Option.isSome_eq_false_iff,
    Option.isNone_iff_eq_none]

end Offsets

section Bounded

variable {p : Pattern} {t u v : Text} {fuel : Nat}

/-- A pattern without repetitions matches where one of its ways is seen ahead. -/
theorem isSome_matchAt_iff (hp : p.Bounded) (hfuel : v.length ≤ fuel) :
    (p.matchAt fuel (.amid u v)).isSome ↔ ∃ row ∈ p.rows, Cursor.sees row v := by
  constructor
  · intro h
    obtain ⟨m, hm⟩ := Option.isSome_iff_exists.mp h
    obtain ⟨w, hread⟩ := reads_of_matchAt hm
    obtain ⟨row, hrow, -, hsees⟩ := hread.exists_row hp
    exact ⟨row, hrow, hsees⟩
  · rintro ⟨row, hrow, hsees⟩
    exact (reads_of_row hp hrow hsees []).isSome_run hp.direct hfuel rfl

theorem occursIn_iff_exists_row (hp : p.Bounded) :
    p.occursIn t ↔ ∃ u v, t = u ++ v ∧ ∃ row ∈ p.rows, Cursor.sees row v := by
  rw [occursIn_iff]
  refine exists_congr fun u => exists_congr fun v => and_congr_right fun ht => isSome_matchAt_iff hp ?_
  rw [ht, List.length_append]
  exact Nat.le_add_left _ _

/-- A text that such a pattern fits is seen from end to end by one of its ways. -/
theorem exists_row_of_fits (hp : p.Bounded) (h : p.fits t) :
    ∃ row ∈ p.rows, row.length = t.length ∧ Cursor.sees row t := by
  obtain ⟨m, hm⟩ := Option.isSome_iff_exists.mp h
  obtain ⟨_, hread⟩ := reads_of_match? hm
  obtain ⟨u, _, r, rfl, hread, hend⟩ := hread.of_seq
  obtain ⟨row, hrow, hlength, hsees⟩ := hread.exists_row hp
  have hrest : r.cursor.rest = [] := by
    cases hend with
    | anchor hholds => exact List.isEmpty_iff.mp hholds
  have ht : t = u ++ r.cursor.rest := hread.advance.1
  rw [hrest, List.append_nil] at ht
  exact ⟨row, hrow, by rw [hlength, ht], hsees⟩

/-- Characters are read, and neither the first nor the last of them is a blank. -/
structure Tight (row : List CharSet) : Prop where
  ne_nil : row ≠ []
  first : ∀ s ∈ row.head?, ∀ c, Text.isBlank c → s c = false
  last : ∀ s ∈ row.getLast?, ∀ c, Text.isBlank c → s c = false

/-- What such a way reads has no blank at either end. -/
theorem Tight.exists_word {row : List CharSet} (h : Tight row) (hsees : Cursor.sees row v) :
    ∃ w x, v = w ++ x ∧ w.length = row.length ∧ w ≠ [] ∧ (∀ c ∈ w.head?, Text.isBlank c = false) ∧
      ∀ c ∈ w.getLast?, Text.isBlank c = false := by
  have hle := length_le_of_sees hsees
  have hlength : (v.take row.length).length = row.length := List.length_take_of_le hle
  have hword : Cursor.sees row (v.take row.length) := by
    rwa [← List.take_append_drop row.length v, Cursor.sees_append_right (Nat.le_of_eq hlength.symm)] at hsees
  refine ⟨v.take row.length, v.drop row.length, (List.take_append_drop _ _).symm, hlength, ?_, ?_, ?_⟩
  · have hpos := List.length_pos_of_ne_nil h.ne_nil
    exact List.ne_nil_of_length_pos (by omega)
  · intro c hc
    obtain ⟨s, rest, rfl⟩ := List.exists_cons_of_ne_nil h.ne_nil
    obtain ⟨w, hw⟩ := List.head?_eq_some_iff.mp hc
    rw [hw, Cursor.sees, Bool.and_eq_true] at hword
    rw [Bool.eq_false_iff]
    intro hblank
    rw [h.first s rfl c hblank] at hword
    cases hword.1
  · intro c hc
    obtain ⟨front, s, rfl⟩ := (List.eq_nil_or_concat' row).resolve_left h.ne_nil
    obtain ⟨w, hw⟩ := List.getLast?_eq_some_iff.mp hc
    rw [hw] at hlength hword
    have hfront : w.length = front.length := by simpa using hlength
    rw [sees_append, ← hfront, List.drop_left, Bool.and_eq_true] at hword
    rw [Bool.eq_false_iff]
    intro hblank
    rw [Cursor.sees, h.last s (by rw [List.getLast?_concat]; rfl) c hblank] at hword
    cases hword.2

/-- Blanks around a text do not matter to a pattern that neither begins nor ends in one. -/
theorem occursIn_trim (hp : p.Bounded) (hrows : ∀ row ∈ p.rows, Tight row) (t : Text) :
    p.occursIn (Text.trim t) = p.occursIn t := by
  rw [Bool.eq_iff_iff, occursIn_iff_exists_row hp, occursIn_iff_exists_row hp]
  constructor
  · rintro ⟨u, v, htrim, row, hrow, hsees⟩
    obtain ⟨bs, bs', -, -, ht⟩ := Text.exists_blanks_around t
    refine ⟨bs ++ u, v ++ bs', by rw [ht, htrim]; simp, row, hrow, ?_⟩
    rwa [Cursor.sees_append_right (length_le_of_sees hsees)]
  · rintro ⟨u, v, rfl, row, hrow, hsees⟩
    obtain ⟨w, x, rfl, hlength, hne, hfirst, hlast⟩ := (hrows row hrow).exists_word hsees
    refine ⟨Text.trimLeft u, w ++ Text.trimRight x, ?_, row, hrow, ?_⟩
    · rw [← List.append_assoc, Text.trim_append_append hne hfirst hlast, List.append_assoc]
    · rw [Cursor.sees_append_right (Nat.le_of_eq hlength.symm)] at hsees ⊢
      exact hsees

end Bounded

section Found

variable {p : Pattern} {m m' : Match} {t u u' v w : Text} {fuel fuel' : Nat}

/-- What a match has read stands where the match begins. -/
theorem text_prefix_of_matchAt (h : p.matchAt fuel (.amid u v) = some m) :
    m.text <+: v ∧ m.stop.pos = u.length + m.text.length := by
  obtain ⟨x, hread⟩ := reads_of_matchAt h
  have htext : m.text = x := by
    rw [Match.text, start_of_matchAt h]
    exact hread.between_eq
  obtain ⟨hrest, hpos⟩ := hread.advance
  rw [htext]
  exact ⟨⟨m.stop.rest, hrest.symm⟩, hpos⟩

theorem text_ne_nil_of_matchAt (hp : p.consumes) (h : p.matchAt fuel (.amid u v) = some m) : m.text ≠ [] := by
  obtain ⟨x, hread⟩ := reads_of_matchAt h
  rw [Match.text, start_of_matchAt h, hread.between_eq]
  exact hread.ne_nil hp

/-- Of two matches of a scan the second starts where the first has ended or later. -/
theorem stop_le_of_mem_scanFrom {skip : Nat} {before rest : List Char} {pos : Nat}
    (h : m ∈ p.scanFrom fuel skip before rest pos) (h' : m' ∈ p.scanFrom fuel skip before rest pos)
    (hlt : m.start.pos < m'.start.pos) : m.stop.pos ≤ m'.start.pos := by
  induction rest generalizing skip before pos with
  | nil =>
    cases skip with
    | zero =>
      rw [scanFrom, Option.mem_toList] at h h'
      rw [Option.some.inj (h.symm.trans h')] at hlt
      exact absurd hlt (Nat.lt_irrefl _)
    | succ skip => simp [scanFrom] at h
  | cons c rest ih =>
    cases skip with
    | succ skip => exact ih h h'
    | zero =>
      cases hm : p.matchAt fuel ⟨before, c :: rest, pos⟩ with
      | none =>
        rw [scanFrom, hm] at h h'
        exact ih h h'
      | some m₀ =>
        have hstart : m₀.start.pos = pos := congrArg Cursor.pos (start_of_matchAt hm)
        rw [scanFrom, hm] at h h'
        rcases List.mem_cons.mp h with rfl | h <;> rcases List.mem_cons.mp h' with rfl | h'
        · exact absurd hlt (Nat.lt_irrefl _)
        · have hle := pos_le_of_mem_scanFrom h'
          omega
        · have hle := pos_le_of_mem_scanFrom h
          omega
        · exact ih h h'

theorem stop_le_of_mem_scan (h : m ∈ p.scan t) (h' : m' ∈ p.scan t) (hlt : m.start.pos < m'.start.pos) :
    m.stop.pos ≤ m'.start.pos :=
  stop_le_of_mem_scanFrom h h' hlt

/-- What the matches in the rest `v` of a text after `u` have read. -/
def foundAfter (p : Pattern) (fuel : Nat) (u v : Text) : List Text :=
  (p.scanAfter fuel u v).map Match.text

theorem map_text_scan (p : Pattern) (t : Text) : (p.scan t).map Match.text = p.foundAfter t.length [] t :=
  rfl

theorem foundAfter_step {c : Char} (h : p.matchAt fuel (.amid u (c :: v)) = none) :
    p.foundAfter fuel u (c :: v) = p.foundAfter fuel (u ++ [c]) v :=
  congrArg (List.map Match.text) (scanAfter_step h)

theorem foundAfter_passed (h : ∀ x y, v = x ++ y → y ≠ [] → p.matchAt fuel (.amid (u ++ x) (y ++ w)) = none) :
    p.foundAfter fuel u (v ++ w) = p.foundAfter fuel (u ++ v) w :=
  congrArg (List.map Match.text) (scanAfter_passed p fuel u v w h)

theorem foundAfter_found (hne : v ≠ []) (h : (p.matchAt fuel (.amid u (v ++ w))).map Match.text = some v) :
    p.foundAfter fuel u (v ++ w) = v :: p.foundAfter fuel (u ++ v) w := by
  obtain ⟨m, hm, htext⟩ := Option.map_eq_some_iff.mp h
  have hstop := (text_prefix_of_matchAt hm).2
  rw [htext] at hstop
  rw [foundAfter, scanAfter_found hne hm hstop, List.map_cons, htext]
  rfl

theorem foundAfter_nil (hp : p.consumes) (fuel : Nat) (u : Text) : p.foundAfter fuel u [] = [] := by
  rw [foundAfter, scanAfter_eq_nil fun x y hxy => ?_, List.map_nil]
  obtain ⟨rfl, rfl⟩ := List.append_eq_nil_iff.mp hxy.symm
  rw [Option.eq_none_iff_forall_ne_some]
  intro m hm
  exact text_ne_nil_of_matchAt hp hm (List.prefix_nil.mp (text_prefix_of_matchAt hm).1)

/-- If what follows a text makes no difference to the matches in it, then those come first. -/
theorem foundAfter_append (hp : p.consumes)
    (hsame : ∀ x y, v = x ++ y → y ≠ [] →
      (p.matchAt fuel (.amid (u ++ x) (y ++ w))).map Match.text = (p.matchAt fuel' (.amid (u' ++ x) y)).map Match.text) :
    p.foundAfter fuel u (v ++ w) = p.foundAfter fuel' u' v ++ p.foundAfter fuel (u ++ v) w := by
  induction hn : v.length using Nat.strong_induction_on generalizing u u' v with
  | _ n ih =>
    cases v with
    | nil => rw [foundAfter_nil hp, List.nil_append, List.nil_append, List.append_nil]
    | cons c v =>
      have hhere := hsame [] (c :: v) rfl (List.cons_ne_nil c v)
      rw [List.append_nil, List.append_nil] at hhere
      have hlater : ∀ a b, c :: v = a ++ b → a ≠ [] → p.foundAfter fuel (u ++ a) (b ++ w) =
          p.foundAfter fuel' (u' ++ a) b ++ p.foundAfter fuel (u ++ (c :: v)) w := by
        intro a b hab ha
        have hlength : b.length < n := by
          rw [← hn, hab, List.length_append]
          exact Nat.lt_add_of_pos_left (List.length_pos_of_ne_nil ha)
        have hrest : p.foundAfter fuel (u ++ a) (b ++ w) =
            p.foundAfter fuel' (u' ++ a) b ++ p.foundAfter fuel (u ++ a ++ b) w :=
          ih b.length hlength (fun x y hxy hy => by
            have hsplit := hsame (a ++ x) y (by rw [hab, hxy, List.append_assoc]) hy
            rwa [← List.append_assoc, ← List.append_assoc] at hsplit) rfl
        rwa [List.append_assoc u, ← hab] at hrest
      cases hm : p.matchAt fuel' (.amid u' (c :: v)) with
      | none =>
        rw [hm, Option.map_none, Option.map_eq_none_iff, List.cons_append] at hhere
        rw [List.cons_append, foundAfter_step hhere, foundAfter_step hm]
        exact hlater [c] v rfl (List.cons_ne_nil c [])
      | some m =>
        obtain ⟨hbegins, -⟩ := text_prefix_of_matchAt hm
        have hne := text_ne_nil_of_matchAt hp hm
        obtain ⟨rest, hrest⟩ := hbegins
        rw [hm, Option.map_some, ← hrest, List.append_assoc] at hhere
        have hmatch : (p.matchAt fuel' (.amid u' (m.text ++ rest))).map Match.text = some m.text := by
          rw [hrest, hm, Option.map_some]
        rw [← hrest, List.append_assoc, foundAfter_found hne hhere, foundAfter_found hne hmatch, List.cons_append,
          hlater m.text rest hrest.symm hne, hrest]

end Found

section FoundByRow

variable {p : Pattern} {u u' v w : Text} {c : Char} {fuel fuel' : Nat}

/-- A pattern without repetitions reads the first of its ways that is seen ahead, whatever stands in front. -/
theorem text_matchAt (hp : p.Bounded) (u v : Text) (fuel : Nat) :
    (p.matchAt fuel (.amid u v)).map Match.text = (p.rows.find? (Cursor.sees · v)).map fun row => v.take row.length := by
  cases hfind : p.rows.find? (Cursor.sees · v) with
  | none =>
    have hnone : p.matchAt fuel (.amid u v) = none := matchAt_eq_none fun t r hread => by
      obtain ⟨row, hrow, -, hsees⟩ := hread.exists_row hp
      exact List.find?_eq_none.mp hfind row hrow hsees
    rw [hnone, Option.map_none, Option.map_none]
  | some row =>
    have hrun : p.matchAt fuel (.amid u v) =
        some ⟨.amid u v, .amid (u ++ v.take row.length) (v.drop row.length), []⟩ := run_of_find? hp hfind rfl
    have hbetween := Match.between_amid u (v.take row.length) (v.drop row.length)
    rw [List.take_append_drop] at hbetween
    rw [hrun, Option.map_some, Option.map_some]
    exact congrArg some hbetween

/-- Where a character stands that a way does not read, nothing behind it is seen. -/
theorem sees_append_cons {row : List CharSet} (hc : ∀ s ∈ row, s c = false) (v w : Text) :
    Cursor.sees row (v ++ c :: w) = Cursor.sees row v := by
  induction row generalizing v with
  | nil => rfl
  | cons s row ih =>
    obtain ⟨hs, hrow⟩ := List.forall_mem_cons.mp hc
    cases v with
    | nil =>
      rw [List.nil_append]
      change (s c && Cursor.sees row w) = false
      rw [hs, Bool.false_and]
    | cons d v => rw [List.cons_append, Cursor.sees, Cursor.sees, ih hrow]

theorem not_mem_row_of_avoids (hp : p.Bounded) (hc : p.avoids c) : ∀ row ∈ p.rows, ∀ s ∈ row, s c = false := by
  induction p with
  | empty => simp [rows]
  | one s => simpa [rows, avoids] using hc
  | seq p q ihp ihq =>
    rw [avoids, Bool.and_eq_true] at hc
    intro row hrow s hs
    obtain ⟨first, hfirst, hrow⟩ := List.mem_flatMap.mp hrow
    obtain ⟨second, hsecond, rfl⟩ := List.mem_map.mp hrow
    rcases List.mem_append.mp hs with hs | hs
    · exact ihp hp.1 hc.1 first hfirst s hs
    · exact ihq hp.2 hc.2 second hsecond s hs
  | alt p q ihp ihq =>
    rw [avoids, Bool.and_eq_true] at hc
    exact List.forall_mem_append.mpr ⟨ihp hp.1 hc.1, ihq hp.2 hc.2⟩
  | _ => exact hp.elim

/-- What such a pattern finds in a text does not depend on what stands in front of it. -/
theorem foundAfter_eq (hp : p.Bounded) (hconsumes : p.consumes) (fuel fuel' : Nat) (u u' v : Text) :
    p.foundAfter fuel u v = p.foundAfter fuel' u' v := by
  have hsplit : p.foundAfter fuel u (v ++ []) = p.foundAfter fuel' u' v ++ p.foundAfter fuel (u ++ v) [] := by
    refine foundAfter_append hconsumes fun x y _ _ => ?_
    rw [List.append_nil, text_matchAt hp, text_matchAt hp]
  rwa [foundAfter_nil hconsumes, List.append_nil, List.append_nil] at hsplit

/-- A character that the pattern does not read parts what is found before it from what is found after it. -/
theorem map_text_scan_append_cons (hp : p.Bounded) (hconsumes : p.consumes) (hc : p.avoids c) (v w : Text) :
    (p.scan (v ++ c :: w)).map Match.text = (p.scan v).map Match.text ++ (p.scan w).map Match.text := by
  have hfree := not_mem_row_of_avoids hp hc
  have hbefore : p.foundAfter (v ++ c :: w).length [] (v ++ c :: w) =
      p.foundAfter v.length [] v ++ p.foundAfter (v ++ c :: w).length ([] ++ v) (c :: w) := by
    refine foundAfter_append hconsumes fun x y _ _ => ?_
    have hsees : ∀ row ∈ p.rows, Cursor.sees row (y ++ c :: w) = Cursor.sees row y := fun row hrow =>
      sees_append_cons (hfree row hrow) y w
    rw [text_matchAt hp, text_matchAt hp, List.find?_congr hsees]
    cases hfind : p.rows.find? (Cursor.sees · y) with
    | none => rfl
    | some row =>
      have hsees := List.find?_some hfind
      have hle : row.length ≤ y.length := length_le_of_sees hsees
      rw [Option.map_some, Option.map_some, List.take_append_of_le_length hle]
  have hpassed : p.foundAfter (v ++ c :: w).length ([] ++ v) (c :: w) =
      p.foundAfter (v ++ c :: w).length ([] ++ v ++ [c]) w := by
    refine foundAfter_step (matchAt_eq_none fun t r hread => ?_)
    obtain ⟨d, t, rfl⟩ := List.exists_cons_of_ne_nil (hread.ne_nil hconsumes)
    obtain rfl : c = d := (List.cons.inj hread.advance.1).1
    exact hread.not_mem hc List.mem_cons_self
  rw [map_text_scan, hbefore, hpassed, foundAfter_eq hp hconsumes _ w.length _ [] w]
  rfl

end FoundByRow

end DraftLint.Pattern
