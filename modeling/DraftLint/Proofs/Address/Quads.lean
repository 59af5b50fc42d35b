import DraftLint.Plain.Lexical
import DraftLint.Proofs.Address.Dotted

/-!
# Dotted quads

The quads that are found on a line, row of numbers by row of numbers.
-/

namespace DraftLint

namespace Address

open Pattern Citation

/-- A row of numbers ends in a digit. -/
theorem any_getLast?_dotted {u : Text} {ns : List Text} (hne : ns ≠ []) (hns : ∀ n ∈ ns, IsNumber n) :
    (u ++ dotted ns).getLast?.any Text.isWord := by
  induction ns generalizing u with
  | nil => exact absurd rfl hne
  | cons n ns ih =>
    obtain ⟨hn, hmore⟩ := List.forall_mem_cons.mp hns
    cases ns with
    | nil =>
      obtain ⟨front, c, rfl⟩ := (List.eq_nil_or_concat' n).resolve_left hn.1
      rw [dotted_singleton, ← List.append_assoc, List.getLast?_concat]
      exact isWord_of_digit (hn.2 c (by simp))
    | cons m ns =>
      have hlast := ih (u := u ++ n ++ ['.']) (List.cons_ne_nil m ns) hmore
      rw [dotted_cons n (List.cons_ne_nil m ns)]
      simpa using hlast

theorem not_digit_of_any {o : Option Char} (h : o.any Text.isWord = false) : ∀ c ∈ o, CharSet.digit c = false := by
  intro c hc
  rw [hc, Option.any_some] at h
  exact not_digit_of_not_isWord h

namespace IPv4

section Match

variable {α : Type} {fuel : Nat} {n u v w : Text} {ns : List Text} {captures : List Capture} {next : Reach → Option α}
  {a : α}

theorem pattern_eq : pattern = .seq (.anchor .wordEdge) (.seq quad (.anchor .wordEdge)) :=
  rfl

/-- A number with a full stop behind it. -/
theorem run_digits_dot {q : Pattern} (hn : IsNumber n) (hfuel : n.length ≤ fuel)
    (ha : q.run fuel ⟨.amid (u ++ n ++ ['.']) v, captures⟩ next = some a) :
    digits.run fuel ⟨.amid u (n ++ '.' :: v), captures⟩ (fun r => (Pattern.seq (lit ".") q).run fuel r next) = some a := by
  refine run_digits hn (by simp; decide) hfuel ?_
  have hdot : (lit ".").run fuel ⟨.amid (u ++ n) ('.' :: v), captures⟩ (fun r => q.run fuel r next) =
      q.run fuel ⟨.amid (u ++ n ++ ['.']) v, captures⟩ next :=
    run_literal ['.'] (u ++ n) v
  exact hdot.trans ha

/-- Four numbers are read as far as the last one goes. -/
theorem run_quad {a b c d : Text} {z : α} (hns : ∀ n ∈ [a, b, c, d], IsNumber n)
    (hw : ∀ x ∈ w.head?, CharSet.digit x = false) (hfuel : (dotted [a, b, c, d]).length ≤ fuel)
    (hz : next ⟨.amid (u ++ dotted [a, b, c, d]) w, captures⟩ = some z) :
    quad.run fuel ⟨.amid u (dotted [a, b, c, d] ++ w), captures⟩ next = some z := by
  obtain ⟨ha, hns⟩ := List.forall_mem_cons.mp hns
  obtain ⟨hb, hns⟩ := List.forall_mem_cons.mp hns
  obtain ⟨hc, hd⟩ := List.forall_mem_cons.mp hns
  have hd : IsNumber d := hd d (List.mem_singleton_self d)
  have hrow : dotted [a, b, c, d] ++ w = a ++ '.' :: (b ++ '.' :: (c ++ '.' :: (d ++ w))) := by
    simp [dotted, Text.join]
  have hend : u ++ dotted [a, b, c, d] = u ++ a ++ ['.'] ++ b ++ ['.'] ++ c ++ ['.'] ++ d := by
    simp [dotted, Text.join]
  have hlength : a.length + b.length + c.length + d.length ≤ fuel := by
    simp [dotted, Text.join] at hfuel
    omega
  rw [hend] at hz
  rw [hrow]
  exact run_digits_dot ha (by omega) <| run_digits_dot hb (by omega) <| run_digits_dot hc (by omega) <|
    run_digits hd hw (by omega) hz

/-- A row of four numbers without a word character next to it is found. -/
theorem matchAt_dotted {a b c d : Text} (hns : ∀ n ∈ [a, b, c, d], IsNumber n)
    (hu : u.getLast?.any Text.isWord = false) (hw : w.head?.any Text.isWord = false)
    (hfuel : (dotted [a, b, c, d]).length ≤ fuel) :
    pattern.matchAt fuel (.amid u (dotted [a, b, c, d] ++ w)) =
      some ⟨.amid u (dotted [a, b, c, d] ++ w), .amid (u ++ dotted [a, b, c, d]) w, []⟩ := by
  obtain ⟨x, t, hx, hdigit⟩ := exists_dotted_eq (List.cons_ne_nil a _) hns
  have hbefore : Anchor.wordEdge.holds (.amid u (dotted [a, b, c, d] ++ w)) = true := by
    rw [holds_wordEdge, hu, Bool.false_bne, hx]
    exact isWord_of_digit hdigit
  have hafter : Anchor.wordEdge.holds (.amid (u ++ dotted [a, b, c, d]) w) = true := by
    rw [holds_wordEdge, hw, any_getLast?_dotted (List.cons_ne_nil a _) hns, Bool.bne_false]
  rw [matchAt, pattern_eq, run, run, if_pos hbefore, run]
  refine run_quad hns (not_digit_of_any hw) hfuel ?_
  rw [run, if_pos hafter]

theorem reads_number {r r' : Reach} {t : Text} (h : Reads digits r t r') : IsNumber t :=
  h.of_atLeastOnce_one

theorem exists_dotted_of_reads_quad {r r' : Reach} {t : Text} (h : Reads quad r t r') :
    ∃ a b c d, (∀ n ∈ [a, b, c, d], IsNumber n) ∧ t = dotted [a, b, c, d] := by
  obtain ⟨a, _, _, rfl, ha, h₁⟩ := h.of_seq
  obtain ⟨_, _, _, rfl, hdot₁, h₂⟩ := h₁.of_seq
  obtain ⟨b, _, _, rfl, hb, h₃⟩ := h₂.of_seq
  obtain ⟨_, _, _, rfl, hdot₂, h₄⟩ := h₃.of_seq
  obtain ⟨c, _, _, rfl, hc, h₅⟩ := h₄.of_seq
  obtain ⟨_, d, _, rfl, hdot₃, hd⟩ := h₅.of_seq
  obtain rfl := hdot₁.of_literal
  obtain rfl := hdot₂.of_literal
  obtain rfl := hdot₃.of_literal
  refine ⟨a, b, c, d, ?_, ?_⟩
  · simp [reads_number ha, reads_number hb, reads_number hc, reads_number hd]
  · simp [dotted, Text.join]

/-- What a match reads are four numbers, with no word character next to them. -/
theorem exists_dotted_of_reads {t : Text} {r : Reach} (h : Reads pattern ⟨.amid u v, captures⟩ t r) :
    u.getLast?.any Text.isWord = false ∧ ∃ ms w, ms.length = 4 ∧ (∀ m ∈ ms, IsNumber m) ∧ v = dotted ms ++ w ∧
      w.head?.any Text.isWord = false := by
  obtain ⟨_, t, s, rfl, hedge, h⟩ := h.of_seq
  obtain ⟨t, _, s', rfl, hquad, hend⟩ := h.of_seq
  cases hedge with
  | anchor hedge =>
    cases hend with
    | anchor hend =>
      obtain ⟨w, captures', rfl, rfl⟩ := hquad.exists_amid
      obtain ⟨a, b, c, d, hns, rfl⟩ := exists_dotted_of_reads_quad hquad
      refine ⟨?_, [a, b, c, d], w, rfl, hns, rfl, ?_⟩
      · obtain ⟨x, t, hx, hdigit⟩ := exists_dotted_eq (List.cons_ne_nil a _) hns
        have hbefore : Anchor.wordEdge.holds (.amid u (dotted [a, b, c, d] ++ w)) = true := hedge
        rw [holds_wordEdge, hx, List.cons_append, List.head?_cons, Option.any_some, isWord_of_digit hdigit] at hbefore
        simpa using hbefore
      · have hafter : Anchor.wordEdge.holds (.amid (u ++ dotted [a, b, c, d]) w) = true := hend
        rw [holds_wordEdge, any_getLast?_dotted (List.cons_ne_nil a _) hns] at hafter
        simpa using hafter

theorem matchAt_eq_none_of_word (h : u.getLast?.any Text.isWord) : pattern.matchAt fuel (.amid u v) = none := by
  refine matchAt_eq_none fun t r hread => ?_
  rw [(exists_dotted_of_reads hread).1] at h
  cases h

theorem matchAt_eq_none_of_head (h : ∀ c ∈ v.head?, CharSet.digit c = false) :
    pattern.matchAt fuel (.amid u v) = none := by
  refine matchAt_eq_none fun t r hread => ?_
  obtain ⟨-, ms, w, hlength, hms, rfl, -⟩ := exists_dotted_of_reads hread
  obtain ⟨c, t, ht, hc⟩ := exists_dotted_eq (List.ne_nil_of_length_eq_add_one hlength) hms
  rw [h c (by rw [ht]; rfl)] at hc
  cases hc

end Match

section Scan

variable {heading : Bool} {fuel : Nat} {c : Char} {n u v w : Text} {ns : List Text}

/-- The quads in the rest `v` of a text after `u`, but for the number of a heading. -/
def quadsAfter (heading : Bool) (fuel : Nat) (u v : Text) : List Text :=
  ((pattern.scanAfter fuel u v).filter fun m => !(heading && m.start.pos == 0)).map Match.text

theorem quadsAfter_nil (u : Text) : quadsAfter heading fuel u [] = [] := by
  rw [quadsAfter, scanAfter_eq_nil fun x y hv => ?_]
  · rfl
  · obtain ⟨rfl, rfl⟩ := List.append_eq_nil_iff.mp hv.symm
    exact matchAt_eq_none_of_head (by simp)

theorem quadsAfter_other (hc : CharSet.digit c = false) :
    quadsAfter heading fuel u (c :: v) = quadsAfter heading fuel (u ++ [c]) v := by
  rw [quadsAfter, scanAfter_step (matchAt_eq_none_of_head fun e he => ?_)]
  · rfl
  · obtain rfl := Option.some.inj he
    exact hc

/-- A number is passed if nothing matches at its first digit. -/
theorem quadsAfter_number (hn : IsNumber n) (h : pattern.matchAt fuel (.amid u (n ++ v)) = none) :
    quadsAfter heading fuel u (n ++ v) = quadsAfter heading fuel (u ++ n) v := by
  rw [quadsAfter, scanAfter_passed pattern fuel u n v fun x y hxy hy => ?_]
  · rfl
  · cases hx : x.getLast? with
    | none =>
      obtain rfl := List.getLast?_eq_none_iff.mp hx
      rw [List.append_nil, show y = n from hxy.symm]
      exact h
    | some d =>
      refine matchAt_eq_none_of_word ?_
      rw [List.getLast?_append, hx, Option.some_or, Option.any_some]
      exact isWord_of_digit (hn.2 d (hxy ▸ List.mem_append_left y (List.mem_of_getLast? hx)))

/-- Nothing matches in front of fewer than four numbers that can be taken. -/
theorem matchAt_eq_none_of_short (hne : ns ≠ []) (hns : ∀ n ∈ ns, IsNumber n) (hw : goesOn w = false)
    (h : (untouched w ns).length < 4) : pattern.matchAt fuel (.amid u (dotted ns ++ w)) = none := by
  refine matchAt_eq_none fun t r hread => ?_
  obtain ⟨-, ms, v, hlength, hms, hrow, hv⟩ := exists_dotted_of_reads hread
  obtain ⟨hle, heq⟩ := length_le_of_dotted_append (List.ne_nil_of_length_eq_add_one hlength) hne hms hns
    (not_digit_of_any hv) hw hrow.symm
  rw [untouched] at h
  split_ifs at h with htouch
  · have hfour : ms.length = ns.length := by
      rw [List.length_dropLast] at h
      omega
    rw [← heq hfour, hv] at htouch
    cases htouch
  · omega

/-- A row that has fewer is passed. -/
theorem quadsAfter_short (hne : ns ≠ []) (hns : ∀ n ∈ ns, IsNumber n) (hw : goesOn w = false)
    (h : (untouched w ns).length < 4) :
    quadsAfter heading fuel u (dotted ns ++ w) = quadsAfter heading fuel (u ++ dotted ns) w := by
  induction ns generalizing u with
  | nil => exact absurd rfl hne
  | cons n ns ih =>
    obtain ⟨hn, hmore⟩ := List.forall_mem_cons.mp hns
    have hnone : pattern.matchAt fuel (.amid u (dotted (n :: ns) ++ w)) = none :=
      matchAt_eq_none_of_short hne hns hw h
    cases ns with
    | nil =>
      rw [dotted_singleton] at hnone ⊢
      exact quadsAfter_number hn hnone
    | cons m ns =>
      have hshort : (untouched w (m :: ns)).length < 4 := by
        rw [untouched] at h ⊢
        split_ifs at h ⊢
        all_goals
          simp only [List.dropLast_cons_cons, List.length_cons] at h ⊢
          omega
      have hrest := ih (u := u ++ n ++ ['.']) (List.cons_ne_nil m ns) hmore hshort
      rw [dotted_cons n (List.cons_ne_nil m ns), List.append_assoc, List.cons_append] at hnone ⊢
      rw [quadsAfter_number hn hnone, quadsAfter_other (by decide), hrest]
      simp

theorem quadsAfter_row_of_short (hne : ns ≠ []) (hns : ∀ n ∈ ns, IsNumber n) (hw : goesOn w = false)
    (h : (untouched w ns).length < 4) :
    quadsAfter heading fuel u (dotted ns ++ w) =
      ((fours (untouched w ns)).drop (if heading && u.isEmpty then 1 else 0)).map dotted ++
        quadsAfter heading fuel (u ++ dotted ns) w := by
  rw [quadsAfter_short hne hns hw h, fours_eq_nil_iff.mpr h, List.drop_nil, List.map_nil, List.nil_append]

theorem quadsAfter_found {a b c d : Text} (hns : ∀ n ∈ [a, b, c, d], IsNumber n)
    (hu : u.getLast?.any Text.isWord = false) (hw : w.head?.any Text.isWord = false)
    (hfuel : (dotted [a, b, c, d]).length ≤ fuel) :
    quadsAfter heading fuel u (dotted [a, b, c, d] ++ w) =
      ([[a, b, c, d]].drop (if heading && u.isEmpty then 1 else 0)).map dotted ++
        quadsAfter heading fuel (u ++ dotted [a, b, c, d]) w := by
  obtain ⟨x, t, hx, -⟩ := exists_dotted_eq (List.cons_ne_nil a _) hns
  have hne : dotted [a, b, c, d] ≠ [] := by
    rw [hx]
    exact List.cons_ne_nil x t
  have hstart : (u.length == 0) = u.isEmpty := by cases u <;> rfl
  rw [quadsAfter, scanAfter_found hne (matchAt_dotted hns hu hw hfuel) (by simp [Cursor.amid]), List.filter_cons]
  simp only [Cursor.amid, hstart]
  cases heading && u.isEmpty with
  | true => rfl
  | false => exact congrArg (· :: _) (Match.between_amid u _ w)

/-- From a number on that no word character touches, blocks of four are taken. -/
theorem quadsAfter_row (hne : ns ≠ []) (hns : ∀ n ∈ ns, IsNumber n) (hu : u.getLast?.any Text.isWord = false)
    (hw : goesOn w = false) (hfuel : (dotted ns).length ≤ fuel) :
    quadsAfter heading fuel u (dotted ns ++ w) =
      ((fours (untouched w ns)).drop (if heading && u.isEmpty then 1 else 0)).map dotted ++
        quadsAfter heading fuel (u ++ dotted ns) w := by
  induction ns using fours.induct generalizing u with
  | case2 ns h =>
    have hnil : fours ns = [] := by
      rw [fours.eq_2 ns h]
    have hlength := fours_eq_nil_iff.mp hnil
    exact quadsAfter_row_of_short hne hns hw (Nat.lt_of_le_of_lt (length_untouched_le w ns) hlength)
  | case1 a b c d ns ih =>
    cases ns with
    | nil =>
      by_cases htouch : w.head?.any Text.isWord = true
      · refine quadsAfter_row_of_short hne hns hw ?_
        rw [untouched, if_pos htouch]
        exact Nat.lt_succ_self 3
      · rw [untouched, if_neg htouch]
        exact quadsAfter_found hns hu (Bool.not_eq_true _ ▸ htouch) hfuel
    | cons n ns =>
      have hmore := List.cons_ne_nil n ns
      have hboth : ∀ k ∈ [a, b, c, d] ++ n :: ns, IsNumber k := hns
      obtain ⟨hblock, hns⟩ := List.forall_mem_append.mp hboth
      have hrow : dotted (a :: b :: c :: d :: n :: ns) = dotted [a, b, c, d] ++ '.' :: dotted (n :: ns) := by
        simp [dotted, Text.join]
      have huntouched : untouched w (a :: b :: c :: d :: n :: ns) = a :: b :: c :: d :: untouched w (n :: ns) := by
        rw [untouched, untouched]
        split_ifs <;> rfl
      rw [hrow, List.length_append, List.length_cons] at hfuel
      have hrest := ih (u := u ++ dotted [a, b, c, d] ++ ['.']) hmore hns (by simp; decide) (by omega)
      have hdot : ('.' :: (dotted (n :: ns) ++ w)).head?.any Text.isWord = false := show Text.isWord '.' = false by decide
      rw [hrow, List.append_assoc, List.cons_append, huntouched, fours, quadsAfter_found hblock hu hdot (by omega),
        quadsAfter_other (by decide), hrest]
      cases heading && u.isEmpty <;> simp

end Scan

end IPv4

namespace IPv4

variable {heading : Bool} {fuel : Nat} {u : Text} {ps : List Piece}

theorem quadsAfter_touched {w : Text} {ns : List Text} (hne : ns ≠ []) (hns : ∀ n ∈ ns, IsNumber n)
    (hu : u.getLast?.any Text.isWord) (hw : goesOn w = false) (hfuel : (dotted ns).length ≤ fuel) :
    quadsAfter heading fuel u (dotted ns ++ w) =
      (fours (untouched w ns.tail)).map dotted ++ quadsAfter heading fuel (u ++ dotted ns) w := by
  obtain ⟨n, ns, rfl⟩ := List.exists_cons_of_ne_nil hne
  obtain ⟨hn, hmore⟩ := List.forall_mem_cons.mp hns
  cases ns with
  | nil =>
    have hnil : untouched w [] = [] := by
      rw [untouched]
      split_ifs <;> rfl
    rw [dotted_singleton, quadsAfter_number hn (matchAt_eq_none_of_word hu), List.tail_cons, hnil]
    rfl
  | cons m ns =>
    have hlist := List.cons_ne_nil m ns
    rw [dotted_cons n hlist, List.length_append, List.length_cons] at hfuel
    have hdot : (u ++ n ++ ['.']).getLast?.any Text.isWord = false := by
      simp
      decide
    rw [dotted_cons n hlist, List.append_assoc, List.cons_append, quadsAfter_number hn (matchAt_eq_none_of_word hu),
      quadsAfter_other (by decide), quadsAfter_row hlist hmore hdot hw (by omega)]
    simp

theorem quadsAfter_pieces (h : Parted ps) (hfuel : (ps.flatMap Piece.text).length ≤ fuel) :
    quadsAfter heading fuel u (ps.flatMap Piece.text) = (sequencesAfter u ps).flatMap (·.blocks heading) := by
  induction h generalizing u with
  | nil => exact quadsAfter_nil u
  | @other c ps hc h ih =>
    rw [List.flatMap_cons, List.length_append] at hfuel
    have hrest := ih (u := u ++ [c]) (Nat.le_of_add_left_le hfuel)
    rw [List.flatMap_cons, Piece.text, List.singleton_append, quadsAfter_other hc, hrest]
    rfl
  | @row ns ps hne hns hend h ih =>
    rw [List.flatMap_cons, List.length_append] at hfuel
    have hrest := ih (u := u ++ dotted ns) (Nat.le_of_add_left_le hfuel)
    have hrow := Nat.le_of_add_right_le hfuel
    rw [List.flatMap_cons, Piece.text, sequencesAfter, List.flatMap_cons, ← hrest]
    by_cases hu : u.getLast?.any Text.isWord = true
    · have hstart : u.isEmpty = false := by
        cases u with
        | nil => cases hu
        | cons c u => rfl
      rw [quadsAfter_touched hne hns hu hend hrow]
      simp [Sequence.blocks, Sequence.free, Sequence.touchedBefore, Sequence.ofHeading, hu, hstart]
    · rw [Bool.not_eq_true] at hu
      rw [quadsAfter_row hne hns hu hend hrow]
      simp [Sequence.blocks, Sequence.free, Sequence.touchedBefore, Sequence.ofHeading, hu]

end IPv4

end Address

theorem Plain.Items.quadsIn_eq (t : Text) :
    quadsIn t = (Address.sequences t).flatMap (·.blocks (Heading.deepNumber.leads t)) := by
  have hfuel : ((Address.pieces t).flatMap Address.Piece.text).length ≤ t.length :=
    Nat.le_of_eq (congrArg List.length (Address.text_pieces t))
  calc quadsIn t
      = Address.IPv4.quadsAfter (Heading.deepNumber.leads t) t.length [] ((Address.pieces t).flatMap Address.Piece.text) := by
        rw [Address.text_pieces]
        rfl
    _ = (Address.sequences t).flatMap (·.blocks (Heading.deepNumber.leads t)) :=
        Address.IPv4.quadsAfter_pieces (Address.parted_pieces t) hfuel

end DraftLint
