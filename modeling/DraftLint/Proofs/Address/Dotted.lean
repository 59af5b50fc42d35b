import DraftLint.Address.IPv4
import DraftLint.Heading
import DraftLint.Proofs.Statement

/-!
# Dotted numbers

A text is a row of pieces: numbers with full stops between, as many as follow each other, and single characters
that belong to no number.  There is one way only to take it so.  A quad that stands alone is a row of four numbers
that no word character touches and that is not the number of a heading.
-/

namespace DraftLint.Address

open Citation (IsNumber)

/-- Numbers with full stops between. -/
def dotted (ns : List Text) : Text :=
  Text.join ['.'] ns

inductive Piece where
  /-- A dotted row of numbers that goes on neither before nor behind. -/
  | row (ns : List Text)
  /-- A character that is no digit. -/
  | other (c : Char)
deriving DecidableEq

def Piece.text : Piece → Text
  | row ns => dotted ns
  | other c => [c]

/-- A digit in front of a number belongs to it, and one with a full stop between is a number of the same row. -/
def pieces : Text → List Piece
  | [] => []
  | c :: t =>
    if CharSet.digit c then
      match pieces t with
      | .row (n :: ns) :: ps => .row ((c :: n) :: ns) :: ps
      | .other '.' :: .row ns :: ps => .row ([c] :: ns) :: ps
      | ps => .row [[c]] :: ps
    else .other c :: pieces t

/-- What stands behind a number belongs to its row: a digit, or a full stop and a digit. -/
def goesOn : Text → Bool
  | [] => false
  | c :: t => CharSet.digit c || c == '.' && t.head?.any CharSet.digit

section Dotted

variable {n : Text} {ns : List Text}

theorem dotted_singleton (n : Text) : dotted [n] = n := by
  rw [dotted, Text.join, List.intercalate_singleton]

theorem dotted_cons (n : Text) (hns : ns ≠ []) : dotted (n :: ns) = n ++ '.' :: dotted ns := by
  rw [dotted, Text.join, List.intercalate_cons_of_ne_nil hns, List.append_assoc]
  rfl

theorem dotted_cons_cons (c : Char) (n : Text) (ns : List Text) : dotted ((c :: n) :: ns) = c :: dotted (n :: ns) := by
  cases ns with
  | nil => rw [dotted_singleton, dotted_singleton]
  | cons k ns => rw [dotted_cons _ (List.cons_ne_nil k ns), dotted_cons _ (List.cons_ne_nil k ns), List.cons_append]

/-- A row of numbers begins with a digit. -/
theorem exists_dotted_eq (hns : ns ≠ []) (h : ∀ n ∈ ns, IsNumber n) :
    ∃ c t, dotted ns = c :: t ∧ CharSet.digit c := by
  obtain ⟨n, ns, rfl⟩ := List.exists_cons_of_ne_nil hns
  obtain ⟨hne, hdigits⟩ := h n List.mem_cons_self
  obtain ⟨c, n, rfl⟩ := List.exists_cons_of_ne_nil hne
  refine ⟨c, ?_⟩
  cases ns with
  | nil => exact ⟨n, dotted_singleton _, hdigits c List.mem_cons_self⟩
  | cons k ns =>
    rw [dotted_cons _ (List.cons_ne_nil k ns)]
    exact ⟨_, rfl, hdigits c List.mem_cons_self⟩

end Dotted

/-- Every row goes as far as it can, and digits stand in rows only. -/
inductive Parted : List Piece → Prop
  | nil : Parted []
  | row {ns : List Text} {ps : List Piece} (hne : ns ≠ []) (hns : ∀ n ∈ ns, IsNumber n)
      (hend : goesOn (ps.flatMap Piece.text) = false) (h : Parted ps) : Parted (.row ns :: ps)
  | other {c : Char} {ps : List Piece} (hc : CharSet.digit c = false) (h : Parted ps) : Parted (.other c :: ps)

section Pieces

variable {c : Char} {t : Text} {ps : List Piece}

theorem isNumber_singleton (hc : CharSet.digit c) : IsNumber [c] :=
  ⟨List.cons_ne_nil c [], List.forall_mem_singleton.mpr hc⟩

theorem isNumber_cons {n : Text} (hc : CharSet.digit c) (hn : IsNumber n) : IsNumber (c :: n) :=
  ⟨List.cons_ne_nil c n, List.forall_mem_cons.mpr ⟨hc, hn.2⟩⟩

theorem goesOn_eq_false_iff : goesOn t = false ↔
    (∀ c ∈ t.head?, CharSet.digit c = false) ∧ ∀ v, t = '.' :: v → ∀ c ∈ v.head?, CharSet.digit c = false := by
  cases t with
  | nil => simp [goesOn]
  | cons c t =>
    cases t with
    | nil => simp [goesOn]
    | cons d t => simp [goesOn]

/-- Nothing in front of such pieces is part of a row that they begin with. -/
theorem Parted.goesOn_eq_false (h : Parted ps) (hrow : ∀ ns ps', ps ≠ .row ns :: ps')
    (hdot : ∀ ns ps', ps ≠ .other '.' :: .row ns :: ps') : goesOn (ps.flatMap Piece.text) = false := by
  cases h with
  | nil => rfl
  | row hne hns hend h => exact absurd rfl (hrow _ _)
  | @other c ps hc h =>
    rw [List.flatMap_cons, Piece.text, List.singleton_append, goesOn, hc, Bool.false_or]
    cases h with
    | nil => rw [List.flatMap_nil, List.head?_nil, Option.any_none, Bool.and_false]
    | row hne hns hend h =>
      rw [Bool.and_eq_false_iff, beq_eq_false_iff_ne]
      left
      rintro rfl
      exact hdot _ _ rfl
    | other hd h =>
      rw [List.flatMap_cons, Piece.text, List.singleton_append, List.head?_cons, Option.any_some, hd, Bool.and_false]

theorem Parted.exists_text_eq {ns : List Text} (h : Parted (.row ns :: ps)) :
    ∃ c t, (Piece.row ns :: ps).flatMap Piece.text = c :: t ∧ CharSet.digit c := by
  cases h with
  | row hne hns hend h =>
    obtain ⟨c, t, ht, hc⟩ := exists_dotted_eq hne hns
    rw [List.flatMap_cons, Piece.text, ht]
    exact ⟨c, _, rfl, hc⟩

theorem parted_pieces (t : Text) : Parted (pieces t) := by
  induction t with
  | nil => exact .nil
  | cons c t ih =>
    rw [pieces]
    split_ifs with hc
    · split
      case h_1 n ns ps hps =>
        rw [hps] at ih
        cases ih with
        | row hne hns hend h =>
          obtain ⟨hn, hns⟩ := List.forall_mem_cons.mp hns
          exact .row (List.cons_ne_nil _ _) (List.forall_mem_cons.mpr ⟨isNumber_cons hc hn, hns⟩) hend h
      case h_2 ns ps hps =>
        rw [hps] at ih
        cases ih with
        | other hdot h =>
          cases h with
          | row hne hns hend h =>
            exact .row (List.cons_ne_nil _ _) (List.forall_mem_cons.mpr ⟨isNumber_singleton hc, hns⟩) hend h
      case h_3 ps hrow hdot =>
        refine .row (List.cons_ne_nil _ _) (List.forall_mem_singleton.mpr (isNumber_singleton hc)) ?_ ih
        refine ih.goesOn_eq_false (fun ns ps' he => ?_) fun ns ps' he => hdot ns ps' he
        rw [he] at ih
        cases ih with
        | row hne hns hend h =>
          obtain ⟨n, ns, rfl⟩ := List.exists_cons_of_ne_nil hne
          exact hrow n ns ps' he
    · exact .other (Bool.not_eq_true _ ▸ hc) ih

theorem text_pieces (t : Text) : (pieces t).flatMap Piece.text = t := by
  induction t with
  | nil => rfl
  | cons c t ih =>
    have hparted := parted_pieces t
    rw [pieces]
    split_ifs with hc
    · split
      case h_1 n ns ps hps =>
        rw [hps] at ih
        rw [← ih, List.flatMap_cons, List.flatMap_cons, Piece.text, Piece.text, dotted_cons_cons, List.cons_append]
      case h_2 ns ps hps =>
        rw [hps] at ih hparted
        cases hparted with
        | other hdot h =>
          cases h with
          | row hne hns hend h =>
            rw [← ih, List.flatMap_cons, Piece.text, dotted_cons _ hne]
            rfl
      case h_3 ps hrow hdot =>
        rw [List.flatMap_cons, Piece.text, dotted_singleton, ih, List.singleton_append]
    · rw [List.flatMap_cons, ih, Piece.text, List.singleton_append]

end Pieces

section Unique

variable {n m u v w : Text} {ns ms : List Text} {ps : List Piece}

/-- A number that ends where no digit stands is told by the text that it begins. -/
theorem number_append_inj (hn : IsNumber n) (hm : IsNumber m) (hu : ∀ c ∈ u.head?, CharSet.digit c = false)
    (hv : ∀ c ∈ v.head?, CharSet.digit c = false) (h : n ++ u = m ++ v) : n = m ∧ u = v := by
  have htake : ∀ {k w : Text}, IsNumber k → (∀ c ∈ w.head?, CharSet.digit c = false) →
      (k ++ w).takeWhile CharSet.digit = k := by
    intro k w hk hw
    rw [List.takeWhile_append_of_pos hk.2]
    cases w with
    | nil => exact List.append_nil k
    | cons c w => rw [List.takeWhile_cons_of_neg (by simp [hw c rfl]), List.append_nil]
  have hnm := congrArg (List.takeWhile CharSet.digit) h
  rw [htake hn hu, htake hm hv] at hnm
  subst hnm
  exact ⟨rfl, List.append_cancel_left h⟩

/-- Rows of numbers at the start of a text.  The one that goes as far as it can is the longest. -/
theorem length_le_of_dotted_append (hms : ms ≠ []) (hns : ns ≠ []) (hm : ∀ m ∈ ms, IsNumber m)
    (hn : ∀ n ∈ ns, IsNumber n) (hv : ∀ c ∈ v.head?, CharSet.digit c = false) (hw : goesOn w = false)
    (h : dotted ms ++ v = dotted ns ++ w) : ms.length ≤ ns.length ∧ (ms.length = ns.length → v = w) := by
  have hstop : ∀ c ∈ ('.' :: v).head?, CharSet.digit c = false := by
    intro c hc
    obtain rfl := Option.some.inj hc
    decide
  obtain ⟨hdigit, hdot⟩ := goesOn_eq_false_iff.mp hw
  induction ms generalizing ns with
  | nil => exact absurd rfl hms
  | cons m ms ih =>
    obtain ⟨n, ns, rfl⟩ := List.exists_cons_of_ne_nil hns
    obtain ⟨hfirst, hms'⟩ := List.forall_mem_cons.mp hm
    obtain ⟨hfirst', hns'⟩ := List.forall_mem_cons.mp hn
    cases ms with
    | nil =>
      refine ⟨by simp, fun hlength => ?_⟩
      obtain rfl := List.length_eq_zero_iff.mp (Nat.succ.inj hlength).symm
      rw [dotted_singleton, dotted_singleton] at h
      exact (number_append_inj hfirst hfirst' hv hdigit h).2
    | cons m' ms =>
      rw [dotted_cons m (List.cons_ne_nil m' ms), List.append_assoc, List.cons_append] at h
      cases ns with
      | nil =>
        -- The row of `n` would go on.
        rw [dotted_singleton] at h
        obtain ⟨-, hrest⟩ := number_append_inj hfirst hfirst' (by simpa using hstop) hdigit h
        obtain ⟨c, t, ht, hc⟩ := exists_dotted_eq (List.cons_ne_nil m' ms) hms'
        rw [hdot _ hrest.symm c (by rw [ht]; rfl)] at hc
        cases hc
      | cons n' ns =>
        rw [dotted_cons n (List.cons_ne_nil n' ns), List.append_assoc, List.cons_append] at h
        obtain ⟨-, hrest⟩ := number_append_inj hfirst hfirst' (by simpa using hstop) (by simpa using hstop) h
        obtain ⟨hle, heq⟩ := ih (List.cons_ne_nil m' ms) (List.cons_ne_nil n' ns) hms' hns' (List.cons.inj hrest).2
        exact ⟨Nat.succ_le_succ hle, fun hlength => heq (Nat.succ.inj hlength)⟩

/-- A piece in front of which a number stands would go on. -/
theorem goesOn_of_pieces (h : pieces w = .row ns :: ps ∨ pieces w = .other '.' :: .row ns :: ps) : goesOn w := by
  have hparted := parted_pieces w
  have htext := text_pieces w
  rcases h with h | h
  · rw [h] at hparted htext
    obtain ⟨c, t, ht, hc⟩ := hparted.exists_text_eq
    rw [← htext, ht, goesOn, hc, Bool.true_or]
  · rw [h] at hparted htext
    cases hparted with
    | other hdot hparted =>
      obtain ⟨c, t, ht, hc⟩ := hparted.exists_text_eq
      rw [← htext, List.flatMap_cons, Piece.text, List.singleton_append, ht, goesOn, List.head?_cons, Option.any_some, hc]
      decide

theorem pieces_append_row {t : Text} (hn : ∀ c ∈ n, CharSet.digit c) (h : pieces t = .row (m :: ns) :: ps) :
    pieces (n ++ t) = .row ((n ++ m) :: ns) :: ps := by
  induction n with
  | nil => exact h
  | cons c n ih =>
    obtain ⟨hc, hn⟩ := List.forall_mem_cons.mp hn
    rw [List.cons_append, pieces, if_pos hc, ih hn]
    rfl

/-- A row of numbers that does not go on is one piece. -/
theorem pieces_dotted_append (hne : ns ≠ []) (hns : ∀ n ∈ ns, IsNumber n) (hw : goesOn w = false) :
    pieces (dotted ns ++ w) = .row ns :: pieces w := by
  induction ns with
  | nil => exact absurd rfl hne
  | cons n ns ih =>
    obtain ⟨hn, hmore⟩ := List.forall_mem_cons.mp hns
    obtain ⟨front, c, rfl⟩ := (List.eq_nil_or_concat' n).resolve_left hn.1
    obtain ⟨hfront, hc⟩ := List.forall_mem_append.mp hn.2
    have hc : CharSet.digit c := hc c (List.mem_singleton_self c)
    cases ns with
    | nil =>
      rw [dotted_singleton, List.append_assoc]
      refine pieces_append_row hfront ?_
      rw [List.singleton_append, pieces, if_pos hc]
      split
      case h_1 m ms ps hps =>
        rw [goesOn_of_pieces (.inl hps)] at hw
        cases hw
      case h_2 ms ps hps =>
        rw [goesOn_of_pieces (.inr hps)] at hw
        cases hw
      case h_3 => rfl
    | cons m ns =>
      have hrest := ih (List.cons_ne_nil m ns) hmore
      rw [dotted_cons _ (List.cons_ne_nil m ns), List.append_assoc, List.append_assoc]
      refine pieces_append_row hfront ?_
      have hdot : pieces ('.' :: (dotted (m :: ns) ++ w)) = .other '.' :: .row (m :: ns) :: pieces w := by
        rw [pieces, if_neg (by decide), hrest]
      rw [List.singleton_append, List.cons_append, pieces, if_pos hc, hdot]
      rfl

/-- A text can be taken in one way only. -/
theorem pieces_eq_iff {t : Text} : pieces t = ps ↔ Parted ps ∧ ps.flatMap Piece.text = t := by
  constructor
  · rintro rfl
    exact ⟨parted_pieces t, text_pieces t⟩
  · rintro ⟨h, rfl⟩
    induction h with
    | nil => rfl
    | row hne hns hend h ih => rw [List.flatMap_cons, Piece.text, pieces_dotted_append hne hns hend, ih]
    | other hc h ih =>
      rw [List.flatMap_cons, Piece.text, List.singleton_append, pieces, if_neg (by simp [hc]), ih]

end Unique

section Blocks

/-- Blocks of four, from the front. -/
def fours : List Text → List (List Text)
  | a :: b :: c :: d :: ns => [a, b, c, d] :: fours ns
  | _ => []

theorem length_fours (ns : List Text) : (fours ns).length = ns.length / 4 := by
  induction ns using fours.induct with
  | case1 a b c d ns ih =>
    rw [fours, List.length_cons, ih]
    simp only [List.length_cons]
    omega
  | case2 ns h =>
    rw [fours.eq_2 ns h, List.length_nil, eq_comm, Nat.div_eq_zero_iff_lt (by decide)]
    by_contra hlength
    match ns, h, hlength with
    | a :: b :: c :: d :: ns, h, _ => exact h a b c d ns rfl
    | [], _, hlength | [_], _, hlength | [_, _], _, hlength | [_, _, _], _, hlength => simp at hlength

theorem fours_eq_nil_iff {ns : List Text} : fours ns = [] ↔ ns.length < 4 := by
  rw [← List.length_eq_zero_iff, length_fours, Nat.div_eq_zero_iff_lt (by decide)]

/-- The numbers of a row that no word character behind it touches. -/
def untouched (w : Text) (ns : List Text) : List Text :=
  if w.head?.any Text.isWord then ns.dropLast else ns

theorem length_untouched_le (w : Text) (ns : List Text) : (untouched w ns).length ≤ ns.length := by
  rw [untouched]
  split_ifs
  · exact List.length_dropLast ▸ Nat.sub_le _ _
  · exact Nat.le_refl _

end Blocks

/-- A row of numbers that goes on neither before nor behind, with the text around it. -/
structure Sequence where
  before : Text
  numbers : List Text
  after : Text

namespace Sequence

variable (heading : Bool) (s : Sequence)

def text : Text :=
  dotted s.numbers

def touchedBefore : Bool :=
  s.before.getLast?.any Text.isWord

def touchedBehind : Bool :=
  s.after.head?.any Text.isWord

/-- The numbers with no word character next to them. -/
def free : List Text :=
  untouched s.after (if s.touchedBefore then s.numbers.tail else s.numbers)

/-- The number of the heading that the text is. -/
def ofHeading : Bool :=
  heading && s.before.isEmpty

/-- Four numbers that stand alone and are not those of a heading. -/
def isQuad : Bool :=
  s.numbers.length == 4 && !s.touchedBefore && !s.touchedBehind && !s.ofHeading heading

/-- The free numbers by four, less the first block of a heading. -/
def blocks : List Text :=
  ((fours s.free).drop (if s.ofHeading heading then 1 else 0)).map dotted

section Blocks

variable {heading : Bool} {s : Sequence}

/-- A quad that stands alone is a block. -/
theorem blocks_of_isQuad (h : s.isQuad heading) : s.blocks heading = [s.text] := by
  simp only [isQuad, Bool.and_eq_true, Bool.not_eq_true', beq_iff_eq] at h
  obtain ⟨⟨⟨hlength, hbefore⟩, hbehind⟩, hheading⟩ := h
  have hfree : s.free = s.numbers := by
    rw [free, hbefore, untouched, if_neg (by simpa [touchedBehind] using hbehind), if_neg Bool.false_ne_true]
  have hfours : fours s.numbers = [s.numbers] := by
    match s.numbers, hlength with
    | [a, b, c, d], _ => rfl
  rw [blocks, hheading, hfree, hfours, if_neg Bool.false_ne_true]
  rfl

theorem blocks_eq_nil_iff :
    s.blocks heading = [] ↔ s.free.length < if s.ofHeading heading then 8 else 4 := by
  rw [blocks, List.map_eq_nil_iff, List.drop_eq_nil_iff, length_fours]
  split_ifs <;> omega

end Blocks

end Sequence

/-- The rows among pieces behind a text. -/
def sequencesAfter (u : Text) : List Piece → List Sequence
  | [] => []
  | .row ns :: ps => ⟨u, ns, ps.flatMap Piece.text⟩ :: sequencesAfter (u ++ dotted ns) ps
  | .other c :: ps => sequencesAfter (u ++ [c]) ps

/-- The dotted sequences of a text, each as long as it can be. -/
def sequences (t : Text) : List Sequence :=
  sequencesAfter [] (pieces t)

/-- The dotted quads that stand alone in a text. -/
def quads (t : Text) : List Text :=
  ((sequences t).filter (·.isQuad (Heading.deepNumber.leads t))).map Sequence.text

end DraftLint.Address
