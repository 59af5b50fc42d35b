import DraftLint.Proofs.Address.Quads
import DraftLint.Proofs.Address.Values
import DraftLint.Proofs.Pattern.Blanks
import DraftLint.Proofs.Text.Words

/-!
# Literals of IPv6 addresses

An address is written as groups of hexadecimal digits with a colon behind each and a tail.  Between blanks it is found
as a whole, unless it has more colons than candidates may have.
-/

namespace DraftLint.Address.IPv6

open Pattern

variable {c : Char}

theorem bounds_of_hexDigit (h : hexDigit c) :
    (0x30 ≤ c.toNat ∧ c.toNat ≤ 0x39) ∨ (0x61 ≤ c.toNat ∧ c.toNat ≤ 0x66) := by
  simp only [hexDigit, CharSet.or, CharSet.digit, CharSet.range, Bool.or_eq_true, Bool.and_eq_true,
    decide_eq_true_eq] at h
  exact h

theorem lt_of_hexDigit_ignoreCase (h : hexDigit.ignoreCase c) : c.toNat < 0x80 := by
  obtain ⟨d, hd, hhex⟩ := List.any_eq_true.mp h
  have hbounds := bounds_of_hexDigit hhex
  unfold CharSet.caseForms at hd
  split_ifs at hd <;> simp only [List.mem_cons, List.not_mem_nil, or_false] at hd <;>
    rcases hd with rfl | rfl | rfl
  case neg.inr.inl =>
    rcases Text.toLower_eq_or_capital c with hc | hc
    · rw [hc] at hbounds
      omega
    · omega
  case neg.inr.inr =>
    rcases Text.toUpper_eq_or_small c with hc | hc
    · rw [hc] at hbounds
      omega
    · omega
  all_goals first | omega | cases hhex

/-- Hexadecimal digits of either case. -/
theorem hexDigit_ignoreCase : hexDigit.ignoreCase = Text.isHexDigit := by
  funext c
  by_cases hc : c.toNat < 0x80
  · exact Text.forall_of_lt (p := fun c => hexDigit.ignoreCase c = Text.isHexDigit c) (by decide) c hc
  · rw [Bool.eq_false_iff.mpr (mt lt_of_hexDigit_ignoreCase hc), Bool.eq_false_iff.mpr (mt Text.lt_of_isHexDigit hc)]

theorem digit_ignoreCase : CharSet.digit.ignoreCase = CharSet.digit := by
  funext c
  rw [Bool.eq_iff_iff]
  exact ⟨Citation.digit_of_figure, Text.ignoreCase_of_mem⟩

theorem quad_ignoreCase : IPv4.quad.ignoreCase = IPv4.quad := by
  have hdot : (lit ".").ignoreCase = lit "." := congrArg one (Text.only_ignoreCase (by decide))
  have hdigits : digits.ignoreCase = digits := by
    simp only [digits, atLeastOnce, digit, ignoreCase, digit_ignoreCase]
  simp only [IPv4.quad, all, ignoreCase, hdot, hdigits]

/-- Up to four hexadecimal digits and a colon. -/
def group : Pattern :=
  seq (upTo 4 (one Text.isHexDigit)) (one (.only ':'))

/-- A dotted quad or up to four hexadecimal digits. -/
def tail : Pattern :=
  alt IPv4.quad (upTo 4 (one Text.isHexDigit))

/-- What may not stand in front of a candidate. -/
def touchingBefore : CharSet :=
  (CharSet.or .word (.of ":.")).ignoreCase

/-- What may not stand behind a candidate. -/
def touchingBehind : CharSet :=
  (CharSet.or .word (.only ':')).ignoreCase

theorem pattern_eq : pattern =
    seq (anchor (.notAfter [touchingBefore])) (seq (seq (seq group group) (upTo 5 group))
      (seq tail (notAhead (one touchingBehind)))) := by
  have hgroup : (Pattern.seq (upTo 4 (one hexDigit)) (lit ":")).ignoreCase = group := by
    have hcolon : (lit ":").ignoreCase = one (.only ':') := congrArg one (Text.only_ignoreCase (by decide))
    simp only [group, ignoreCase, upTo, maybe, hexDigit_ignoreCase, hcolon]
  have htail : (oneOf [IPv4.quad, upTo 4 (one hexDigit)]).ignoreCase = tail := by
    simp only [tail, oneOf, ignoreCase, upTo, maybe, hexDigit_ignoreCase, quad_ignoreCase]
  rw [← hgroup, ← htail]
  rfl

section Shape

/-- At most four hexadecimal digits. -/
def IsGroup (g : Text) : Prop :=
  g.length ≤ 4 ∧ ∀ c ∈ g, Text.isHexDigit c

/-- What stands behind the last colon. -/
def IsTail (t : Text) : Prop :=
  IsGroup t ∨ ∃ a b c d, (∀ n ∈ [a, b, c, d], Citation.IsNumber n) ∧ t = dotted [a, b, c, d]

/-- Groups with a colon behind each. -/
def groupsText (gs : List Text) : Text :=
  gs.flatMap (· ++ [':'])

variable {g t u v w : Text} {gs : List Text}

theorem not_isBlank_of_isHexDigit (h : Text.isHexDigit c) : Text.isBlank c = false := by
  rw [Bool.eq_false_iff]
  intro hblank
  have hnone := Text.forall_blank (p := fun c => Text.isHexDigit c = false) (by decide) hblank
  rw [h] at hnone
  cases hnone

theorem isHexDigit_of_digit (h : CharSet.digit c) : Text.isHexDigit c :=
  Citation.forall_digit (p := fun c => Text.isHexDigit c) (by decide) h

/-- The tail of a literal is made of digits and full stops. -/
theorem IsTail.forall_mem (h : IsTail t) : ∀ c ∈ t, Text.isHexDigit c ∨ c = '.' := by
  rcases h with h | ⟨a, b, c, d, hns, rfl⟩
  · exact fun c hc => .inl (h.2 c hc)
  · intro x hx
    have hdigits : ∀ n ∈ [a, b, c, d], ∀ x ∈ n, Text.isHexDigit x := fun n hn x hx => isHexDigit_of_digit ((hns n hn).2 x hx)
    simp only [dotted, Text.join, List.intercalate_cons_cons, List.intercalate_singleton, List.mem_append,
      List.mem_singleton] at hx
    simp only [List.mem_cons, List.not_mem_nil, or_false, forall_eq_or_imp, forall_eq] at hdigits
    obtain ⟨ha, hb, hc, hd⟩ := hdigits
    rcases hx with (hx | hx) | (hx | hx) | (hx | hx) | hx
    · exact .inl (ha x hx)
    · exact .inr hx
    · exact .inl (hb x hx)
    · exact .inr hx
    · exact .inl (hc x hx)
    · exact .inr hx
    · exact .inl (hd x hx)

/-- What a group reads, it reads up to a colon. -/
theorem exists_of_reads_group {r r' : Reach} (h : Reads group r t r') : ∃ g, IsGroup g ∧ t = g ++ [':'] := by
  obtain ⟨g, _, _, rfl, hdigits, hcolon⟩ := h.of_seq
  obtain ⟨c, rfl, hc⟩ := hcolon.of_one
  obtain rfl := beq_iff_eq.mp hc
  exact ⟨g, hdigits.of_upTo_one, rfl⟩

/-- No group can be read from the tail on. -/
theorem not_reads_group {r' : Reach} {w : Text} {captures : List Capture} (ht : IsTail t)
    (hv : ∀ c ∈ v.head?, Text.isBlank c) : ¬Reads group ⟨.amid u (t ++ v), captures⟩ w r' := by
  intro h
  obtain ⟨g, hg, rfl⟩ := exists_of_reads_group h
  have hfree : ∀ c ∈ g ++ [':'], Text.isBlank c = false :=
    List.forall_mem_append.mpr ⟨fun c hc => not_isBlank_of_isHexDigit (hg.2 c hc), by simp; decide⟩
  have hcolon : ':' ∈ t := (Text.prefix_of_append_eq hfree hv h.advance.1).subset (by simp)
  rcases ht.forall_mem ':' hcolon with hhex | hdot
  · exact absurd hhex (by decide)
  · exact absurd hdot (by decide)

/-- No quad can be read from hexadecimal digits on. -/
theorem not_reads_quad {r' : Reach} {w : Text} {captures : List Capture} (ht : IsGroup t)
    (hv : ∀ c ∈ v.head?, Text.isBlank c) : ¬Reads IPv4.quad ⟨.amid u (t ++ v), captures⟩ w r' := by
  intro h
  obtain ⟨a, b, c, d, hns, rfl⟩ := IPv4.exists_dotted_of_reads_quad h
  have htail : IsTail (dotted [a, b, c, d]) := .inr ⟨a, b, c, d, hns, rfl⟩
  have hfree : ∀ x ∈ dotted [a, b, c, d], Text.isBlank x = false := by
    intro x hx
    rcases htail.forall_mem x hx with hhex | rfl
    · exact not_isBlank_of_isHexDigit hhex
    · decide
  have hdot : '.' ∈ t := (Text.prefix_of_append_eq hfree hv h.advance.1).subset (by simp [dotted, Text.join])
  exact absurd (ht.2 '.' hdot) (by decide)

end Shape

section Match

variable {α : Type} {fuel k : Nat} {g t u v : Text} {gs : List Text} {captures : List Capture} {next : Reach → Option α}
  {a : α}

theorem run_group (hg : IsGroup g) (ha : next ⟨.amid (u ++ (g ++ [':'])) v, captures⟩ = some a) :
    group.run fuel ⟨.amid u (g ++ ':' :: v), captures⟩ next = some a := by
  rw [group, run]
  refine run_upTo_one_all hg.2 hg.1 (by simp; decide) ?_
  rw [run_one_cons (s := .only ':') (beq_self_eq_true ':'), List.append_assoc]
  exact ha

/-- As many groups are read as there are. -/
theorem run_upTo_group (hgs : ∀ g ∈ gs, IsGroup g) (hk : gs.length ≤ k) (ht : IsTail t)
    (hv : ∀ c ∈ v.head?, Text.isBlank c) (ha : next ⟨.amid (u ++ groupsText gs) (t ++ v), captures⟩ = some a) :
    (upTo k group).run fuel ⟨.amid u (groupsText gs ++ (t ++ v)), captures⟩ next = some a := by
  induction gs generalizing u k with
  | nil =>
    rw [groupsText, List.flatMap_nil, List.append_nil] at ha
    rw [groupsText, List.flatMap_nil, List.nil_append]
    cases k with
    | zero => exact ha
    | succ k =>
      rw [upTo, maybe, run_alt_of_none]
      · exact ha
      · rw [run]
        exact run_eq_none fun w r' => not_reads_group ht hv
  | cons g gs ih =>
    obtain ⟨k, rfl⟩ := Nat.exists_eq_add_of_le' (Nat.le_of_add_left_le hk)
    obtain ⟨hg, hgs⟩ := List.forall_mem_cons.mp hgs
    rw [groupsText, List.flatMap_cons, List.append_assoc, List.append_assoc, List.singleton_append, upTo, maybe]
    refine run_alt_of_some ?_
    rw [run]
    refine run_group hg (ih hgs (Nat.le_of_succ_le_succ hk) ?_)
    rw [groupsText, List.flatMap_cons, ← List.append_assoc] at ha
    exact ha

theorem run_tail (ht : IsTail t) (hv : ∀ c ∈ v.head?, Text.isBlank c) (hfuel : t.length ≤ fuel)
    (ha : next ⟨.amid (u ++ t) v, captures⟩ = some a) :
    tail.run fuel ⟨.amid u (t ++ v), captures⟩ next = some a := by
  rcases ht with ht | ⟨a, b, c, d, hns, rfl⟩
  · rw [tail, run_alt_of_none (run_eq_none fun w r' => not_reads_quad ht hv)]
    refine run_upTo_one_all ht.2 ht.1 (fun c hc => ?_) ha
    rw [Bool.eq_false_iff]
    intro hhex
    have hblank := hv c hc
    rw [not_isBlank_of_isHexDigit hhex] at hblank
    cases hblank
  · refine run_alt_of_some (IPv4.run_quad hns (fun x hx => ?_) hfuel ha)
    rw [Bool.eq_false_iff]
    intro hdigit
    have hblank := hv x hx
    rw [not_isBlank_of_isHexDigit (isHexDigit_of_digit hdigit)] at hblank
    cases hblank

theorem not_touchingBefore (hc : Text.isBlank c) : touchingBefore c = false := by
  rw [touchingBefore, Text.ignoreCase_of_isBlank _ hc, CharSet.or, CharSet.word, Text.not_isWord_of_isBlank hc]
  exact Text.forall_blank (p := fun c => CharSet.of ":." c = false) (by decide) hc

theorem run_notAhead (hv : ∀ c ∈ v.head?, Text.isBlank c) :
    (notAhead (one touchingBehind)).run fuel ⟨.amid u v, captures⟩ next = next ⟨.amid u v, captures⟩ := by
  have hset : ∀ c, Text.isBlank c → touchingBehind c = false := by
    intro c hc
    rw [touchingBehind, Text.ignoreCase_of_isBlank _ hc, CharSet.or, CharSet.word, Text.not_isWord_of_isBlank hc]
    exact Text.forall_blank (p := fun c => CharSet.only ':' c = false) (by decide) hc
  have hnone : (one touchingBehind).run fuel ⟨.amid u v, captures⟩ some = none := by
    refine run_one_eq_none fun c w hc hs => ?_
    rw [hset c (hv c (by rw [hc]; rfl))] at hs
    cases hs
  rw [run, hnone, Option.isSome_none, if_neg Bool.false_ne_true]

/-- A literal of two to seven colons that stands between blanks is found as a whole. -/
theorem matchAt_literal (hgs : ∀ g ∈ gs, IsGroup g) (hlo : 2 ≤ gs.length) (hhi : gs.length ≤ 7) (ht : IsTail t)
    (hu : ∀ c ∈ u.getLast?, Text.isBlank c) (hv : ∀ c ∈ v.head?, Text.isBlank c) (hfuel : t.length ≤ fuel) :
    pattern.matchAt fuel (.amid u (groupsText gs ++ t ++ v)) =
      some ⟨.amid u (groupsText gs ++ t ++ v), .amid (u ++ (groupsText gs ++ t)) v, []⟩ := by
  match gs, hlo with
  | g :: h :: gs, _ =>
    obtain ⟨hg, hgs⟩ := List.forall_mem_cons.mp hgs
    obtain ⟨hh, hgs⟩ := List.forall_mem_cons.mp hgs
    have hstart : groupsText (g :: h :: gs) ++ t ++ v = g ++ ':' :: (h ++ ':' :: (groupsText gs ++ (t ++ v))) := by
      simp [groupsText]
    have hend : u ++ (groupsText (g :: h :: gs) ++ t) = u ++ (g ++ [':']) ++ (h ++ [':']) ++ groupsText gs ++ t := by
      simp [groupsText]
    simp only [List.length_cons] at hhi
    rw [matchAt, pattern_eq, run, run, if_pos (holds_notAfter (fun c => not_touchingBefore) hu _), run, run, run, hstart, hend]
    refine run_group hg (run_group hh (run_upTo_group hgs (by omega) ht hv ?_))
    rw [run]
    exact run_tail ht hv hfuel (run_notAhead hv)

end Match

section Reading

variable {g t : Text} {ts : List Text} {n : Nat} {ns : List Nat} {a : IPv6}

theorem WritesGroup.isGroup (h : WritesGroup g n) : IsGroup g :=
  ⟨h.length_le, h.spec.2⟩

theorem isGroup_nil : IsGroup [] :=
  ⟨Nat.zero_le 4, List.forall_mem_nil _⟩

theorem forall_isGroup (h : List.Forall₂ WritesGroup ts ns) : ∀ g ∈ ts, IsGroup g := by
  intro g hg
  obtain ⟨n, hn⟩ := exists_writesGroup h g hg
  exact hn.isGroup

theorem isNumber_ofNat (n : Nat) : Citation.IsNumber (Text.ofNat n) :=
  ⟨Text.ofNat_ne_nil n, Text.digit_ofNat n⟩

/-- All texts but the last are groups. -/
theorem WriteGroups.exists_concat (h : WriteGroups ts ns) :
    ∃ gs l, padded ts = gs ++ [l] ∧ (∀ g ∈ gs, IsGroup g) ∧ IsTail l := by
  cases h with
  | hexadecimal h =>
    have hgroups := forall_isGroup h
    rcases List.eq_nil_or_concat' ts with rfl | ⟨gs, l, rfl⟩
    · exact ⟨[], [], rfl, List.forall_mem_nil _, .inl isGroup_nil⟩
    · obtain ⟨hgs, hl⟩ := List.forall_mem_append.mp hgroups
      exact ⟨gs, l, padded_concat gs l, hgs, .inl (hl l (List.mem_singleton_self l))⟩
  | @dotted gs ns q a b c d h hq =>
    refine ⟨gs, q, padded_concat gs q, forall_isGroup h, .inr ⟨_, _, _, _, ?_, hq.eq⟩⟩
    simp [isNumber_ofNat]

/-- An address is written as groups with a colon behind each and a tail. -/
theorem exists_literal_of_read? (h : read? t = some a) :
    ∃ gs l, t = groupsText gs ++ l ∧ 2 ≤ gs.length ∧ (∀ g ∈ gs, IsGroup g) ∧ IsTail l := by
  cases read?_eq_some_iff.mp h with
  | @full ts ns hts height =>
    obtain ⟨gs, l, hconcat, hgs, hl⟩ := hts.exists_concat
    have hlength := congrArg List.length hconcat
    rw [length_padded, List.length_append, List.length_singleton] at hlength
    have hgroups := hts.spec.1
    refine ⟨gs, l, ?_, by omega, hgs, hl⟩
    rw [← join_padded, hconcat, Text.join_concat, groupsText]
  | @compressed front ts fs bs k hfront hts hk hsum =>
    obtain ⟨gs, l, hconcat, hgs, hl⟩ := hts.exists_concat
    refine ⟨padded front ++ [] :: gs, l, ?_, ?_, List.forall_mem_append.mpr ⟨fun g hg => ?_, ?_⟩, hl⟩
    · rw [← join_gap, hconcat, ← List.cons_append, ← List.append_assoc, Text.join_concat, groupsText]
    · rw [List.length_append, List.length_cons, length_padded]
      omega
    · rcases mem_padded hg with rfl | hg
      · exact isGroup_nil
      · exact forall_isGroup hfront g hg
    · exact List.forall_mem_cons.mpr ⟨isGroup_nil, hgs⟩

end Reading

section Candidates

variable {s t u v w : Text} {a : IPv6} {gs : List Text} {m : Match}

theorem count_of_forall_isHexDigit (h : ∀ c ∈ t, Text.isHexDigit c ∨ c = '.') : t.count ':' = 0 := by
  rw [List.count_eq_zero]
  intro hc
  rcases h ':' hc with hhex | hdot
  · exact absurd hhex (by decide)
  · exact absurd hdot (by decide)

theorem count_group {g : Text} (hg : IsGroup g) : (g ++ [':']).count ':' = 1 := by
  rw [List.count_append, count_of_forall_isHexDigit fun c hc => .inl (hg.2 c hc), List.count_singleton_self]

theorem count_groupsText (hgs : ∀ g ∈ gs, IsGroup g) : (groupsText gs).count ':' = gs.length := by
  induction gs with
  | nil => rfl
  | cons g gs ih =>
    obtain ⟨hg, hgs⟩ := List.forall_mem_cons.mp hgs
    rw [groupsText, List.flatMap_cons, List.count_append, count_group hg, ← groupsText, ih hgs, List.length_cons,
      Nat.add_comm]

theorem count_of_reads_group {r r' : Reach} (h : Reads group r t r') : t.count ':' = 1 := by
  obtain ⟨g, hg, rfl⟩ := exists_of_reads_group h
  exact count_group hg

theorem count_of_reads_upTo {k : Nat} {r r' : Reach} (h : Reads (upTo k group) r t r') : t.count ':' ≤ k := by
  induction k generalizing r t with
  | zero =>
    cases h
    exact Nat.le_refl 0
  | succ k ih =>
    rcases h.of_maybe with rfl | h
    · exact Nat.zero_le _
    · obtain ⟨g, rest, _, rfl, hg, hrest⟩ := h.of_seq
      have hle := ih hrest
      rw [List.count_append, count_of_reads_group hg]
      omega

theorem isTail_of_reads {r r' : Reach} (h : Reads tail r t r') : IsTail t := by
  cases h with
  | left h => exact .inr (IPv4.exists_dotted_of_reads_quad h)
  | right h => exact .inl h.of_upTo_one

/-- No candidate has more than seven colons. -/
theorem count_of_reads {r r' : Reach} (h : Reads pattern r t r') : t.count ':' ≤ 7 := by
  rw [pattern_eq] at h
  obtain ⟨_, _, _, rfl, hanchor, hread⟩ := h.of_seq
  obtain ⟨_, _, _, rfl, hgroups, hback⟩ := hread.of_seq
  obtain ⟨l, _, _, rfl, htail, hnot⟩ := hback.of_seq
  obtain ⟨_, more, _, rfl, htwo, hmore⟩ := hgroups.of_seq
  obtain ⟨g, g', _, rfl, hg, hg'⟩ := htwo.of_seq
  cases hanchor
  cases hnot
  have hle := count_of_reads_upTo hmore
  simp only [List.nil_append, List.append_nil, List.count_append, count_of_reads_group hg, count_of_reads_group hg',
    count_of_forall_isHexDigit (isTail_of_reads htail).forall_mem]
  omega

theorem unblanked_pattern : pattern.Unblanked :=
  fun _ => Text.forall_blank (p := fun c => pattern.avoids c) (by decide +kernel)

/-- The text stands alone in another one: blanks or the ends of the other are on both sides of it. -/
def Stands (s t : Text) : Prop :=
  ∃ u v, t = u ++ s ++ v ∧ (∀ c ∈ u.getLast?, Text.isBlank c) ∧ ∀ c ∈ v.head?, Text.isBlank c

/-- Blanks around a text do not matter to what stands alone in it. -/
theorem Stands.trim (hne : s ≠ []) (hfree : ∀ c ∈ s, Text.isBlank c = false) (h : Stands s t) :
    Stands s (Text.trim t) := by
  obtain ⟨u, v, rfl, hu, hv⟩ := h
  have htrim := Text.trim_append_append hne (fun c hc => hfree c (List.mem_of_head? hc))
    (fun c hc => hfree c (List.mem_of_getLast? hc)) u v
  refine ⟨_, _, htrim, fun c hc => hu c ?_, fun c hc => hv c ?_⟩
  · rw [← List.takeWhile_append_dropWhile (p := Text.isBlank) (l := u), List.getLast?_append]
    rw [Text.trimLeft] at hc
    rw [hc, Option.some_or]
    rfl
  · obtain ⟨bs, -, hbs⟩ := Text.exists_blanks_trimRight v
    rw [hbs, List.head?_append, hc, Option.some_or]
    rfl

/-- A literal is not empty and has no blanks. -/
theorem not_isBlank_of_read? (h : read? s = some a) : s ≠ [] ∧ ∀ c ∈ s, Text.isBlank c = false := by
  obtain ⟨gs, l, rfl, hlo, hgs, hl⟩ := exists_literal_of_read? h
  constructor
  · intro hnil
    have hcount := count_groupsText hgs
    rw [(List.append_eq_nil_iff.mp hnil).1, List.count_nil] at hcount
    omega
  · refine List.forall_mem_append.mpr ⟨fun c hc => ?_, fun c hc => ?_⟩
    · obtain ⟨g, hg, hc⟩ := List.mem_flatMap.mp hc
      rcases List.mem_append.mp hc with hc | hc
      · exact not_isBlank_of_isHexDigit ((hgs g hg).2 c hc)
      · rw [List.mem_singleton.mp hc]
        decide
    · rcases hl.forall_mem c hc with hhex | rfl
      · exact not_isBlank_of_isHexDigit hhex
      · decide

theorem count_of_mem_candidatesIn (h : s ∈ candidatesIn t) : s.count ':' ≤ 7 := by
  obtain ⟨m, hm, rfl⟩ := List.mem_map.mp h
  obtain ⟨x, y, -, hmatch⟩ := exists_amid_of_mem_scan hm
  obtain ⟨w, hread⟩ := reads_of_matchAt hmatch
  have htext : m.text = w := by
    rw [Match.text, start_of_matchAt hmatch]
    exact hread.between_eq
  rw [htext]
  exact count_of_reads hread

/-- An address that stands alone is a candidate if it has at most seven colons. -/
theorem mem_candidatesIn (h : read? s = some a) (hs : Stands s t) (hcount : s.count ':' ≤ 7) : s ∈ candidatesIn t := by
  obtain ⟨u, v, rfl, hu, hv⟩ := hs
  obtain ⟨gs, l, rfl, hlo, hgs, hl⟩ := exists_literal_of_read? h
  rw [List.count_append, count_groupsText hgs, count_of_forall_isHexDigit hl.forall_mem] at hcount
  rw [List.append_assoc]
  have hfuel : l.length ≤ (u ++ (groupsText gs ++ l ++ v)).length := by
    simp only [List.length_append]
    omega
  have hmatch := matchAt_literal hgs hlo hcount hl hu hv hfuel
  refine List.mem_map.mpr ⟨_, mem_scan_of_matchAt hmatch fun x y m' hxy hm' hy => ?_, Match.between_amid u _ v⟩
  rw [hxy]
  refine stop_le_of_isBlank unblanked_pattern hm' hy fun c hc => hu c ?_
  rw [hxy, List.getLast?_append, hc, Option.some_or]
  rfl

end Candidates

end DraftLint.Address.IPv6
