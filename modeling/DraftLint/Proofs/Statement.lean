import DraftLint.Citation
import DraftLint.Issue.Basic
import DraftLint.Proofs.Pattern.Scanning
import DraftLint.Proofs.Text.Case
import Mathlib.Data.List.Forall2

/-!
# Statements about earlier documents

An abstract says in running text which RFCs a document obsoletes or updates.  A statement begins with a verb, a blank
and a number, and goes on as long as numbers follow each other with a comma or a conjunction between, but not with
both.
-/

namespace DraftLint.Citation

open Pattern

section Shape

/-- What may stand before a number. -/
def lead : Pattern :=
  ignoreCase <| maybe <| all [maybe (lit "["), lit "rfc", maybe (lit "s"), maybe space]

/-- What may stand after a number. -/
def close : Pattern :=
  ignoreCase <| seq (maybe (lit "]")) (maybe (oneOf [lit ", ", lit " and "]))

/-- The digits of a number. -/
def figure : CharSet :=
  CharSet.digit.ignoreCase

/-- A number with what belongs to it. -/
def item : Pattern :=
  group 1 (seq lead (seq (atLeastOnce (one figure)) close))

/-- The first characters of a statement. -/
def opening (verbs : List String) : Pattern :=
  seq (oneOf (verbs.map lit)).ignoreCase (seq space.ignoreCase (seq lead (one figure)))

/-- The characters behind a number with which a list of numbers goes on. -/
def continuation : Pattern :=
  seq close (seq lead (one figure))

theorem stated_eq (verbs : List String) : stated verbs =
    .seq (oneOf (verbs.map lit)).ignoreCase (.seq space.ignoreCase (.seq item (.many item))) :=
  rfl

theorem bounded_lead : lead.Bounded := by
  simp [lead, maybe, all, lit, literal, space, ignoreCase, Bounded]

theorem bounded_close : close.Bounded := by
  simp [close, maybe, oneOf, lit, literal, ignoreCase, Bounded]

theorem bounded_verbs {verbs : List String} (h : verbs ≠ []) : (oneOf (verbs.map lit)).ignoreCase.Bounded := by
  refine Bounded.ignoreCase ?_
  induction verbs with
  | nil => exact absurd rfl h
  | cons verb verbs ih =>
    cases verbs with
    | nil => exact bounded_literal _
    | cons other verbs => exact ⟨bounded_literal _, ih (List.cons_ne_nil _ _)⟩

theorem bounded_opening {verbs : List String} (h : verbs ≠ []) : (opening verbs).Bounded :=
  ⟨bounded_verbs h, trivial, bounded_lead, trivial⟩

theorem bounded_continuation : continuation.Bounded :=
  ⟨bounded_close, bounded_lead, trivial⟩

end Shape

section Openings

variable {verbs : List String} {fuel : Nat} {x y z : Text} {captures : List Capture}

/-- A number begins here, perhaps with what may stand before it. -/
def BeginsNumber (z : Text) : Prop :=
  ∃ row ∈ (Pattern.seq lead (one figure)).rows, Cursor.sees row z

/-- A statement begins here. -/
def Opens (verbs : List String) (z : Text) : Prop :=
  ∃ row ∈ (opening verbs).rows, Cursor.sees row z

/-- An item has a figure behind its lead. -/
theorem exists_figure_of_reads {r r' : Reach} {t : Text} (h : Reads item r t r') :
    ∃ before s d s', Reads lead r before s ∧ Reads (one figure) s d s' := by
  obtain ⟨_, hread, -⟩ := h.of_group
  obtain ⟨before, _, s, -, hlead, hread⟩ := hread.of_seq
  obtain ⟨_, _, _, -, hdigits, -⟩ := hread.of_seq
  obtain ⟨d, _, s', -, hdigit, -⟩ := hdigits.of_seq
  exact ⟨before, s, d, s', hlead, hdigit⟩

theorem beginsNumber_of_reads {r r' : Reach} {t : Text} (h : Reads item r t r') : BeginsNumber r.cursor.rest := by
  obtain ⟨_, _, _, _, hlead, hdigit⟩ := exists_figure_of_reads h
  obtain ⟨row, hrow, -, hsees⟩ := (hlead.seq hdigit).exists_row ⟨bounded_lead, trivial⟩
  exact ⟨row, hrow, hsees⟩

theorem opens_of_reads (hverbs : verbs ≠ []) {r r' : Reach} {t : Text} (h : Reads (stated verbs) r t r') :
    Opens verbs r.cursor.rest := by
  rw [stated_eq] at h
  obtain ⟨_, _, _, -, hverb, hread⟩ := h.of_seq
  obtain ⟨_, _, _, -, hgap, hread⟩ := hread.of_seq
  obtain ⟨_, _, _, -, hitem, -⟩ := hread.of_seq
  obtain ⟨_, _, _, _, hlead, hdigit⟩ := exists_figure_of_reads hitem
  obtain ⟨row, hrow, -, hsees⟩ :=
    Reads.exists_row (p := opening verbs) (hverb.seq (hgap.seq (hlead.seq hdigit))) (bounded_opening hverbs)
  exact ⟨row, hrow, hsees⟩

theorem reads_close_nil (r : Reach) : Reads close r [] r :=
  (Reads.right (.empty r)).seq (Reads.right (.empty r))

/-- A statement matches exactly where one begins. -/
theorem isSome_matchAt_stated_iff (hverbs : verbs ≠ []) (hfuel : z.length ≤ fuel) :
    ((stated verbs).matchAt fuel (.amid x z)).isSome ↔ Opens verbs z := by
  constructor
  · intro h
    obtain ⟨m, hm⟩ := Option.isSome_iff_exists.mp h
    obtain ⟨t, hread⟩ := reads_of_matchAt hm
    exact opens_of_reads hverbs hread
  · rintro ⟨row, hrow, hsees⟩
    have hread := reads_of_row (u := x) (bounded_opening hverbs) hrow hsees []
    obtain ⟨verb, _, _, -, hverb, hread⟩ := hread.of_seq
    obtain ⟨gap, _, _, -, hgap, hread⟩ := hread.of_seq
    obtain ⟨before, _, _, -, hlead, hdigit⟩ := hread.of_seq
    have hitem : Reads item _ _ _ := (hlead.seq ((hdigit.seq (.manyDone _ _)).seq (reads_close_nil _))).group
    have hdirect : (Pattern.seq (oneOf (verbs.map lit)).ignoreCase (.seq space.ignoreCase item)).Direct :=
      ⟨(bounded_verbs hverbs).direct, trivial, bounded_lead.direct, ⟨trivial, _, rfl⟩, bounded_close.direct⟩
    have hnext (r' : Reach) :
        ((many item).run fuel r' fun r => some (Match.mk (.amid x z) r.cursor r.captures)).isSome :=
      isSome_run_many fuel rfl
    exact (hverb.seq (hgap.seq hitem)).isSome_run hdirect (by exact hfuel) (hnext _)

theorem matchAt_stated_eq_none (hverbs : verbs ≠ []) (h : ¬Opens verbs z) :
    (stated verbs).matchAt fuel (.amid x z) = none :=
  matchAt_eq_none fun _ _ hread => h (opens_of_reads hverbs hread)

theorem not_opens_of_occursIn (hverbs : verbs ≠ []) (h : (stated verbs).occursIn (x ++ z) = false) :
    ¬Opens verbs z := by
  intro hopens
  rw [Bool.eq_false_iff] at h
  refine h (occursIn_iff.mpr ⟨x, z, rfl, (isSome_matchAt_stated_iff hverbs ?_).mpr hopens⟩)
  rw [List.length_append]
  exact Nat.le_add_left _ _

end Openings

section Numbers

variable {c : Char} {fuel : Nat} {n u v x : Text}

/-- Plain digits. -/
def IsNumber (n : Text) : Prop :=
  n ≠ [] ∧ ∀ c ∈ n, CharSet.digit c

instance (n : Text) : Decidable (IsNumber n) :=
  decidable_of_iff (n ≠ [] ∧ n.all CharSet.digit) (by rw [IsNumber, List.all_eq_true])

theorem isWord_of_digit (h : CharSet.digit c) : Text.isWord c := by
  have hbounds := Text.digit_iff.mp h
  simp only [Text.isWord, if_pos (show c.toNat < 0x80 by omega), Bool.or_eq_true, Bool.and_eq_true, decide_eq_true_eq]
  exact .inl (.inr hbounds)

theorem not_digit_of_not_isWord (h : Text.isWord c = false) : CharSet.digit c = false := by
  rw [Bool.eq_false_iff]
  intro hdigit
  rw [isWord_of_digit hdigit] at h
  cases h

/-- What is true of the plain digits among the ASCII characters is true of all of them. -/
theorem forall_digit {p : Char → Prop} (hp : ∀ n < 0x40, CharSet.digit (Char.ofNat n) → p (Char.ofNat n))
    (h : CharSet.digit c) : p c := by
  have hbounds := Text.digit_iff.mp h
  exact Text.forall_of_lt (p := fun c => CharSet.digit c → p c) hp c (by omega) h

theorem any_eq_false {o : Option Char} (h : ∀ c ∈ o, Text.isWord c = false) : o.any Text.isWord = false := by
  cases o with
  | none => rfl
  | some c => exact h c rfl

theorem number_eq : number = .seq (.anchor .wordEdge) (.seq digits (.anchor .wordEdge)) :=
  rfl

/-- Digits are read as far as they go. -/
theorem run_digits {α : Type} {captures : List Capture} {next : Reach → Option α} {a : α} (hn : IsNumber n)
    (hv : ∀ c ∈ v.head?, CharSet.digit c = false) (hfuel : n.length ≤ fuel)
    (ha : next ⟨.amid (u ++ n) v, captures⟩ = some a) :
    digits.run fuel ⟨.amid u (n ++ v), captures⟩ next = some a := by
  obtain ⟨c, n, rfl⟩ := List.exists_cons_of_ne_nil hn.1
  obtain ⟨hc, hn⟩ := List.forall_mem_cons.mp hn.2
  rw [digits, atLeastOnce, digit, run, List.cons_append, run_one_cons hc]
  refine run_many_one_all hn hv ?_ (Nat.le_of_succ_le hfuel)
  rw [List.append_assoc]
  exact ha

theorem matchAt_number_eq_none (h : ∀ c ∈ v.head?, CharSet.digit c = false) :
    number.matchAt fuel (.amid u v) = none := by
  refine matchAt_eq_none fun t r hread => ?_
  have hrest := hread.advance.1
  obtain ⟨_, _, _, rfl, hedge, hread⟩ := hread.of_seq
  obtain ⟨_, _, _, rfl, hdigits, -⟩ := hread.of_seq
  obtain ⟨_, _, _, rfl, hdigit, -⟩ := hdigits.of_seq
  obtain ⟨c, rfl, hc⟩ := hdigit.of_one
  cases hedge
  have hv : v = _ := hrest
  rw [h c (by rw [hv]; rfl)] at hc
  cases hc

/-- A number that stands alone is found. -/
theorem matchAt_number (hn : IsNumber n) (hu : ∀ c ∈ u.getLast?, Text.isWord c = false)
    (hv : ∀ c ∈ v.head?, Text.isWord c = false) (hfuel : n.length ≤ fuel) :
    number.matchAt fuel (.amid u (n ++ v)) = some ⟨.amid u (n ++ v), .amid (u ++ n) v, []⟩ := by
  have hbefore : Anchor.wordEdge.holds (.amid u (n ++ v)) = true := by
    obtain ⟨d, ds, rfl⟩ := List.exists_cons_of_ne_nil hn.1
    rw [holds_wordEdge, any_eq_false hu, Bool.false_bne]
    exact isWord_of_digit (hn.2 d List.mem_cons_self)
  have hafter : Anchor.wordEdge.holds (.amid (u ++ n) v) = true := by
    obtain ⟨ds, d, rfl⟩ := (List.eq_nil_or_concat' n).resolve_left hn.1
    rw [holds_wordEdge, any_eq_false hv, ← List.append_assoc, List.getLast?_concat, Option.any_some, Bool.bne_false]
    exact isWord_of_digit (hn.2 d (by simp))
  rw [matchAt, number_eq, run, run, if_pos hbefore, run]
  refine run_digits hn (fun c hc => not_digit_of_not_isWord (hv c hc)) hfuel ?_
  rw [run, if_pos hafter]

/-- The numbers in the rest `v` of a text after `u`. -/
def numbersAfter (fuel : Nat) (u v : Text) : List Text :=
  (number.scanAfter fuel u v).map Match.text

theorem numbersAfter_nil (u : Text) : numbersAfter fuel u [] = [] := by
  rw [numbersAfter, scanAfter_eq_nil fun x y hv => ?_, List.map_nil]
  obtain ⟨rfl, rfl⟩ := List.append_eq_nil_iff.mp hv.symm
  exact matchAt_number_eq_none (by simp)

theorem numbersAfter_passed (hx : ∀ c ∈ x, CharSet.digit c = false) :
    numbersAfter fuel u (x ++ v) = numbersAfter fuel (u ++ x) v := by
  rw [numbersAfter, scanAfter_passed number fuel u x v fun y z hyz hz => ?_]
  · rfl
  · obtain ⟨c, z, rfl⟩ := List.exists_cons_of_ne_nil hz
    refine matchAt_number_eq_none fun d hd => hx d ?_
    obtain rfl := Option.some.inj hd
    rw [hyz]
    exact List.mem_append_right _ List.mem_cons_self

theorem numbersAfter_found (hn : IsNumber n) (hu : ∀ c ∈ u.getLast?, Text.isWord c = false)
    (hv : ∀ c ∈ v.head?, Text.isWord c = false) (hfuel : n.length ≤ fuel) :
    numbersAfter fuel u (n ++ v) = n :: numbersAfter fuel (u ++ n) v := by
  have hmatch := matchAt_number hn hu hv hfuel
  rw [numbersAfter, scanAfter_found hn.1 hmatch (by simp [Cursor.amid]), List.map_cons]
  exact congrArg (· :: numbersAfter fuel (u ++ n) v) (Match.between_amid u n v)

end Numbers

section Lists

variable {fuel : Nat} {n g t w rest : Text} {ns : List Text}

theorem digit_of_figure {c : Char} (h : figure c) : CharSet.digit c :=
  Text.digit_of_ignoreCase h

theorem not_figure_of_not_isWord {c : Char} (h : Text.isWord c = false) : figure c = false := by
  rw [Bool.eq_false_iff]
  intro hfigure
  rw [isWord_of_digit (digit_of_figure hfigure)] at h
  cases h

/-- The text in front of the rest is all that is read after a number. -/
def Closes (g rest : Text) : Prop :=
  ∃ row, close.rows.find? (Cursor.sees · (g ++ rest)) = some row ∧ row.length = g.length

/-- The numbers of a list that stands before the rest, with the text of the list. -/
inductive Lists : List Text → Text → Text → Prop
  | done {w : Text} (h : ¬BeginsNumber w) : Lists [] [] w
  | more {n g t w : Text} {ns : List Text} (hn : IsNumber n) (hg : Closes g (t ++ w))
      (hedge : g ≠ [] ∨ t = [] ∧ ∀ c ∈ w.head?, figure c = false) (h : Lists ns t w) :
      Lists (n :: ns) ("RFC ".toList ++ (n ++ (g ++ t))) w

/-- What may stand between two numbers and after the last, the longer before the shorter. -/
def closings : List Text :=
  ["], ", "] and ", "]", ", ", " and ", ""].map String.toList

theorem close_rows : close.rows = closings.map (·.map fun c => (CharSet.only c).ignoreCase) :=
  rfl

theorem not_digit_of_all {t : Text} (h : t.all fun c => !CharSet.digit c) :
    ∀ c ∈ t, CharSet.digit c = false := by
  simpa using h

/-- No digit passes for another character. -/
theorem not_digit_of_ignoreCase {c x : Char} (h : (CharSet.only x).ignoreCase c) (hx : CharSet.digit x = false) :
    CharSet.digit c = false := by
  rw [Bool.eq_false_iff]
  intro hdigit
  have hforms : (CharSet.caseForms c).all (· == c) :=
    forall_digit (p := fun c => (CharSet.caseForms c).all (· == c)) (by decide) hdigit
  obtain ⟨d, hd, hdx⟩ := List.any_eq_true.mp h
  rw [← beq_iff_eq.mp hdx, beq_iff_eq.mp (List.all_eq_true.mp hforms d hd), hdigit] at hx
  cases hx

theorem forall₂_of_sees {row : List CharSet} (hlength : row.length = g.length) (h : Cursor.sees row g) :
    List.Forall₂ (fun s c => s c = true) row g := by
  induction row generalizing g with
  | nil =>
    obtain rfl := List.length_eq_zero_iff.mp hlength.symm
    exact .nil
  | cons s row ih =>
    cases g with
    | nil => cases h
    | cons c g =>
      rw [Cursor.sees, Bool.and_eq_true] at h
      exact .cons h.1 (ih (Nat.succ.inj hlength) h.2)

theorem sees_of_find? {rows : List (List CharSet)} {row : List CharSet} {t : Text}
    (h : rows.find? (Cursor.sees · t) = some row) : Cursor.sees row t := by
  have hsees := List.find?_some h
  exact hsees

theorem Closes.exists_closing (h : Closes g rest) :
    ∃ t ∈ closings, List.Forall₂ (fun x c => (CharSet.only x).ignoreCase c = true) t g := by
  obtain ⟨row, hfind, hlength⟩ := h
  have hsees := sees_of_find? hfind
  rw [Cursor.sees_append_right (Nat.le_of_eq hlength)] at hsees
  have hrow := List.mem_of_find?_eq_some hfind
  rw [close_rows, List.mem_map] at hrow
  obtain ⟨t, ht, rfl⟩ := hrow
  exact ⟨t, ht, List.forall₂_map_left_iff.mp (forall₂_of_sees hlength hsees)⟩

theorem exists_mem_of_forall₂ {R : Char → Char → Prop} {t g : Text} {c : Char} (h : List.Forall₂ R t g)
    (hc : c ∈ g) : ∃ x ∈ t, R x c := by
  induction h with
  | nil => cases hc
  | @cons x _ t _ hxc _ ih =>
    rcases List.mem_cons.mp hc with rfl | hc
    · exact ⟨x, List.mem_cons_self .., hxc⟩
    · obtain ⟨y, hy, hyc⟩ := ih hc
      exact ⟨y, List.mem_cons_of_mem x hy, hyc⟩

theorem exists_mem_head?_of_forall₂ {R : Char → Char → Prop} {t g : Text} {c : Char} (h : List.Forall₂ R t g)
    (hc : c ∈ g.head?) : ∃ x ∈ t.head?, R x c := by
  cases h with
  | nil => cases hc
  | cons hxc _ =>
    obtain rfl := Option.some.inj hc
    exact ⟨_, rfl, hxc⟩

/-- No digits stand after a number, and no letters or digits at the ends of what does. -/
theorem Closes.apart (h : Closes g rest) :
    (∀ c ∈ g, CharSet.digit c = false) ∧ (∀ c ∈ g.head?, Text.isWord c = false) ∧
      ∀ c ∈ g.getLast?, Text.isWord c = false := by
  obtain ⟨t, ht, hread⟩ := h.exists_closing
  have hdigits : ∀ t ∈ closings, (t.all fun x => !CharSet.digit x) = true := by decide
  have hends : ∀ t ∈ closings, ((t.head?.toList ++ t.getLast?.toList).all fun x =>
      !CharSet.letter x && !Text.isWord x) = true := by decide
  -- At its ends a closing has marks and blanks, for which no other character passes.
  have hmark {x c : Char} (hx : x ∈ t.head?.toList ++ t.getLast?.toList) (hxc : (CharSet.only x).ignoreCase c) :
      Text.isWord c = false := by
    have hplain := List.all_eq_true.mp (hends t ht) x hx
    simp only [Bool.and_eq_true, Bool.not_eq_true'] at hplain
    rw [Text.eq_of_only_ignoreCase hplain.1 hxc]
    exact hplain.2
  refine ⟨fun c hc => ?_, fun c hc => ?_, fun c hc => ?_⟩
  · obtain ⟨x, hx, hxc⟩ := exists_mem_of_forall₂ hread hc
    exact not_digit_of_ignoreCase hxc (not_digit_of_all (hdigits t ht) x hx)
  · obtain ⟨x, hx, hxc⟩ := exists_mem_head?_of_forall₂ hread hc
    exact hmark (List.mem_append_left _ (Option.mem_toList.mpr hx)) hxc
  · rw [← List.head?_reverse] at hc
    obtain ⟨x, hx, hxc⟩ := exists_mem_head?_of_forall₂ (List.forall₂_reverse_iff.mpr hread) hc
    rw [List.head?_reverse] at hx
    exact hmark (List.mem_append_right _ (Option.mem_toList.mpr hx)) hxc

/-- A number with what stands before and after it is read as far as it goes. -/
theorem run_item {α : Type} {f : Reach → Option α} {a : α} (hn : IsNumber n) (hg : Closes g rest)
    (hedge : ∀ c ∈ (g ++ rest).head?, figure c = false) (hfuel : n.length ≤ fuel) (u : Text) (captures : List Capture)
    (ha : f ⟨.amid (u ++ ("RFC ".toList ++ (n ++ g))) rest,
      ⟨1, .amid u ("RFC ".toList ++ (n ++ (g ++ rest))), .amid (u ++ ("RFC ".toList ++ (n ++ g))) rest⟩ :: captures⟩ =
        some a) :
    item.run fuel ⟨.amid u ("RFC ".toList ++ (n ++ (g ++ rest))), captures⟩ f = some a := by
  obtain ⟨row, hrow, hlength⟩ := hg
  obtain ⟨d, ds, rfl⟩ := List.exists_cons_of_ne_nil hn.1
  have hdigits : ∀ c ∈ d :: ds, figure c := fun c hc => Text.ignoreCase_of_mem (hn.2 c hc)
  obtain ⟨hd, hds⟩ := List.forall_mem_cons.mp hdigits
  rw [item, run, run]
  have hlead : lead.rows.find? (Cursor.sees · ("RFC ".toList ++ (d :: ds ++ (g ++ rest)))) =
      some (['r', 'f', 'c', ' '].map fun c => (CharSet.only c).ignoreCase) := rfl
  refine run_of_find? bounded_lead hlead ?_
  change (Pattern.seq (atLeastOnce (one figure)) close).run fuel
    ⟨.amid (u ++ "RFC ".toList) (d :: (ds ++ (g ++ rest))), captures⟩ _ = some a
  rw [run, atLeastOnce, run, run_one_cons hd]
  refine run_many_one_all hds hedge ?_ (Nat.le_of_succ_le hfuel)
  refine run_of_find? bounded_close hrow ?_
  have hjoin : u ++ "RFC ".toList ++ [d] ++ ds ++ g = u ++ ("RFC ".toList ++ (d :: ds ++ g)) := by
    simp only [List.append_assoc, List.cons_append, List.nil_append]
  rw [hlength, List.take_left, List.drop_left, hjoin]
  exact ha

/-- A list is read number by number. -/
theorem numbersAfter_lists (h : Lists ns t w) (u : Text) (hfuel : t.length ≤ fuel) : numbersAfter fuel u t = ns := by
  induction h generalizing u with
  | done h => exact numbersAfter_nil u
  | @more n g t w ns hn hg hedge h ih =>
    obtain ⟨hdigits, hhead, hlast⟩ := hg.apart
    simp only [List.length_append] at hfuel
    have hafter : ∀ c ∈ (g ++ t).head?, Text.isWord c = false := by
      rcases hedge with hne | ⟨rfl, -⟩
      · rwa [List.head?_append_of_ne_nil _ hne]
      · rwa [List.append_nil]
    have hbefore : ∀ c ∈ (u ++ "RFC ".toList).getLast?, Text.isWord c = false := by
      rw [List.getLast?_append]
      rintro _ ⟨⟩
      rfl
    rw [numbersAfter_passed (not_digit_of_all rfl), numbersAfter_found hn hbefore hafter (by omega),
      numbersAfter_passed hdigits, ih _ (by omega)]

theorem Lists.length_le (h : Lists ns t w) : ns.length ≤ t.length := by
  induction h with
  | done h => exact Nat.le_refl 0
  | @more n g t w ns hn hg hedge h ih =>
    have hpos := List.length_pos_of_ne_nil hn.1
    simp only [List.length_cons, List.length_append]
    omega

/-- No digit comes after a number. -/
theorem Closes.not_figure (hg : Closes g (t ++ w)) (hedge : g ≠ [] ∨ t = [] ∧ ∀ c ∈ w.head?, figure c = false) :
    ∀ c ∈ (g ++ (t ++ w)).head?, figure c = false := by
  cases g with
  | cons d g => exact fun c hc => not_figure_of_not_isWord (hg.apart.2.1 c hc)
  | nil =>
    obtain ⟨rfl, hw⟩ := hedge.resolve_left fun h => h rfl
    exact hw

theorem exists_greedy_lists {c : Cursor} {fuel' : Nat} (h : Lists ns t w) (u : Text) (captures : List Capture)
    (hfuel : ns.length ≤ fuel) (hfuel' : t.length ≤ fuel') :
    ∃ captures', Reach.greedy (fun r next => item.run fuel' r next)
        (fun r => some (Match.mk c r.cursor r.captures)) fuel ⟨.amid u (t ++ w), captures⟩ =
      some ⟨c, .amid (u ++ t) w, captures'⟩ := by
  induction h generalizing u captures fuel with
  | @done w h =>
    refine ⟨captures, ?_⟩
    rw [greedy_done fun t r' hread => h (beginsNumber_of_reads hread), List.append_nil]
    rfl
  | @more n g t w ns hn hg hedge h ih =>
    obtain ⟨fuel, rfl⟩ := Nat.exists_eq_add_of_le' (Nat.le_of_add_left_le hfuel)
    simp only [List.length_append] at hfuel'
    obtain ⟨captures', hrest⟩ := ih (u ++ ("RFC ".toList ++ (n ++ g)))
      (⟨1, .amid u ("RFC ".toList ++ (n ++ (g ++ (t ++ w)))), .amid (u ++ ("RFC ".toList ++ (n ++ g))) (t ++ w)⟩
        :: captures)
      (Nat.le_of_succ_le_succ hfuel) (by omega)
    have hitem := run_item hn hg (hg.not_figure hedge) (by omega : n.length ≤ fuel') u captures
      (f := fun r' => if u.length < r'.cursor.pos then Reach.greedy (fun r next => item.run fuel' r next)
        (fun r => some (Match.mk c r.cursor r.captures)) fuel r' else none) (by
        rw [if_pos (by simp [Cursor.amid]), hrest])
    refine ⟨captures', ?_⟩
    simp only [List.append_assoc] at hitem ⊢
    rw [Reach.greedy]
    exact congrArg (Option.orElse · _) hitem

/-- The numbers are read one after the other until no further one begins. -/
theorem exists_run_lists {c : Cursor} (h : Lists ns t w) (hns : ns ≠ []) (u : Text) (hfuel : t.length ≤ fuel) :
    ∃ captures, (Pattern.seq item (.many item)).run fuel ⟨.amid u (t ++ w), []⟩
        (fun r => some (Match.mk c r.cursor r.captures)) = some ⟨c, .amid (u ++ t) w, captures⟩ := by
  cases h with
  | done h => exact absurd rfl hns
  | @more n g t w ns hn hg hedge h =>
    simp only [List.length_append] at hfuel
    have hrest : t.length ≤ fuel := by omega
    obtain ⟨captures, hrest⟩ := exists_greedy_lists (c := c) h (u ++ ("RFC ".toList ++ (n ++ g)))
      [⟨1, .amid u ("RFC ".toList ++ (n ++ (g ++ (t ++ w)))), .amid (u ++ ("RFC ".toList ++ (n ++ g))) (t ++ w)⟩]
      (Nat.le_trans h.length_le hrest) hrest
    have hitem := run_item hn hg (hg.not_figure hedge) (by omega : n.length ≤ fuel) u []
      (f := fun r => (many item).run fuel r fun r => some (Match.mk c r.cursor r.captures)) hrest
    refine ⟨captures, ?_⟩
    simp only [List.append_assoc] at hitem ⊢
    exact hitem

end Lists

section Verbs

variable {r : Relation} {fuel : Nat} {verb : String} {ns : List Text} {s t u v w x y z rest : Text}

/-- The verbs of a statement. -/
def verbsOf : Relation → List String
  | .obsoletes => ["obsoletes", "replaces"]
  | .updates => ["updates"]

/-- The statements that a document changes others in one way. -/
def statementOf (r : Relation) : Pattern :=
  stated (verbsOf r)

theorem verbsOf_ne_nil (r : Relation) : verbsOf r ≠ [] := by
  cases r <;> exact List.cons_ne_nil _ _

theorem verb_cases (h : verb ∈ verbsOf r) :
    r = .obsoletes ∧ (verb = "obsoletes" ∨ verb = "replaces") ∨ r = .updates ∧ verb = "updates" := by
  cases r with
  | obsoletes => exact .inl ⟨rfl, by simpa [verbsOf] using h⟩
  | updates => exact .inr ⟨rfl, List.mem_singleton.mp h⟩

theorem find?_verb (hverb : verb ∈ verbsOf r) (rest : Text) :
    ((oneOf ((verbsOf r).map lit)).ignoreCase).rows.find? (Cursor.sees · (verb.toList ++ rest)) =
      some (verb.toList.map fun c => (CharSet.only c).ignoreCase) := by
  obtain ⟨rfl, rfl | rfl⟩ | ⟨rfl, rfl⟩ := verb_cases hverb <;> rfl

theorem not_opens_of_take (k : Nat) (hk : k ≤ s.length)
    (h : ∀ row ∈ (opening (verbsOf r)).rows, Cursor.sees (row.take k) s = false) : ¬Opens (verbsOf r) (s ++ z) := by
  rintro ⟨row, hrow, hsees⟩
  have htake := Cursor.sees_take hsees k
  rw [Cursor.sees_append_right (Nat.le_trans (List.length_take_le _ _) hk), h row hrow] at htake
  cases htake

/-- No statement reaches from in front of a verb into it. -/
theorem apart_verb (hverb : verb ∈ verbsOf r) : ∀ row ∈ (opening (verbsOf r)).rows, ∀ k < row.length, 0 < k →
    Cursor.sees ((row.drop k).take 2) verb.toList = false := by
  obtain ⟨rfl, rfl | rfl⟩ | ⟨rfl, rfl⟩ := verb_cases hverb <;> decide +kernel

theorem not_opens_across (hverb : verb ∈ verbsOf r) (hy : y ≠ []) (h : ¬Opens (verbsOf r) y) :
    ¬Opens (verbsOf r) (y ++ (verb.toList ++ z)) := by
  rintro ⟨row, hrow, hsees⟩
  by_cases hlength : row.length ≤ y.length
  · rw [Cursor.sees_append_right hlength] at hsees
    exact h ⟨row, hrow, hsees⟩
  · have hdrop := Cursor.sees_take (Cursor.sees_drop hsees (by omega)) 2
    have htwo : 2 ≤ verb.toList.length := by
      obtain ⟨-, rfl | rfl⟩ | ⟨-, rfl⟩ := verb_cases hverb <;> decide
    rw [Cursor.sees_append_right (Nat.le_trans (List.length_take_le _ _) htwo),
      apart_verb hverb row hrow _ (by omega) (List.length_pos_of_ne_nil hy)] at hdrop
    cases hdrop

theorem not_opens_suffix (hv : (statementOf r).occursIn v = false) (hsplit : v = x ++ y) : ¬Opens (verbsOf r) y :=
  not_opens_of_occursIn (verbsOf_ne_nil r) (hsplit ▸ hv)

/-- The numbers in a list behind a verb. -/
theorem numbersIn_list (hverb : verb ∈ verbsOf r) (h : Lists ns t w) :
    numbersIn (verb.toList ++ ([' '] ++ t)) = ns := by
  have hdigits : ∀ c ∈ verb.toList ++ [' '], CharSet.digit c = false := by
    obtain ⟨-, rfl | rfl⟩ | ⟨-, rfl⟩ := verb_cases hverb <;> exact not_digit_of_all rfl
  have hpassed : numbersIn (verb.toList ++ ([' '] ++ t)) =
      numbersAfter (verb.toList ++ ([' '] ++ t)).length ([] ++ (verb.toList ++ [' '])) t := by
    rw [← numbersAfter_passed hdigits, List.append_assoc]
    rfl
  refine hpassed.trans (numbersAfter_lists h _ ?_)
  simp only [List.length_append]
  omega

/-- A statement reads the list behind its verb. -/
theorem exists_matchAt_statement (hverb : verb ∈ verbsOf r) (h : Lists ns t w) (hns : ns ≠ []) (u : Text)
    (hfuel : t.length ≤ fuel) :
    ∃ captures, (statementOf r).matchAt fuel (.amid u (verb.toList ++ ([' '] ++ t) ++ w)) =
      some ⟨.amid u (verb.toList ++ ([' '] ++ t) ++ w), .amid (u ++ (verb.toList ++ ([' '] ++ t))) w, captures⟩ := by
  obtain ⟨captures, hrun⟩ := exists_run_lists (c := .amid u (verb.toList ++ ([' '] ++ (t ++ w)))) h hns
    (u ++ verb.toList ++ [' ']) hfuel
  refine ⟨captures, ?_⟩
  simp only [List.append_assoc] at hrun ⊢
  rw [statementOf, stated_eq, matchAt, run]
  refine run_of_find? (bounded_verbs (verbsOf_ne_nil r)) (find?_verb hverb _) ?_
  rw [List.length_map, List.take_left, List.drop_left, run]
  refine (run_one_cons (by decide) _).trans ?_
  rw [List.append_assoc]
  exact hrun

/-- In a text with one list behind a verb, the numbers of that list are found. -/
theorem rfcNumbers_of_lists (hverb : verb ∈ verbsOf r) (h : Lists ns t w) (hns : ns ≠ [])
    (hu : (statementOf r).occursIn u = false) (hw : ∀ x y, w = x ++ y → ¬Opens (verbsOf r) y) :
    rfcNumbers (u ++ (verb.toList ++ ([' '] ++ t) ++ w)) (statementOf r) = ns := by
  have hfuel : t.length ≤ (u ++ (verb.toList ++ ([' '] ++ t) ++ w)).length := by
    simp only [List.length_append]
    omega
  obtain ⟨captures, hmatch⟩ := exists_matchAt_statement hverb h hns u hfuel
  have hbefore : ∀ fuel x y, u = x ++ y → y ≠ [] →
      (statementOf r).matchAt fuel (.amid ([] ++ x) (y ++ (verb.toList ++ ([' '] ++ t) ++ w))) = none := by
    intro fuel x y hxy hy
    rw [List.append_assoc]
    exact matchAt_stated_eq_none (verbsOf_ne_nil r) (not_opens_across hverb hy (not_opens_suffix hu hxy))
  have hafter : ∀ fuel x y, w = x ++ y →
      (statementOf r).matchAt fuel (.amid (u ++ (verb.toList ++ ([' '] ++ t)) ++ x) y) = none :=
    fun fuel x y hxy => matchAt_stated_eq_none (verbsOf_ne_nil r) (hw x y hxy)
  have hne : verb.toList ++ ([' '] ++ t) ≠ [] := by simp
  rw [rfcNumbers, scan_eq_scanAfter, scanAfter_passed _ _ _ _ _ (hbefore _), List.nil_append,
    scanAfter_found hne hmatch (List.length_append ..), scanAfter_eq_nil (hafter _), List.flatMap_singleton, Match.text,
    Match.between_amid]
  exact numbersIn_list hverb h

end Verbs

section English

variable {r : Relation} {verb : String} {n : Text} {ns : List Text} {g s t u v w x y z rest : Text}

/-- What stands before the last of three or more RFCs. -/
def conjunction : Text :=
  "and RFC ".toList

/-- RFCs with a comma after each, and a last one after a conjunction. -/
def serial (last : Text) : List Text → Text
  | [] => conjunction ++ last
  | n :: ns => "RFC ".toList ++ (n ++ (", ".toList ++ serial last ns))

/-- RFCs by their numbers as they are listed in English. -/
def english : List Text → Text
  | [] => []
  | [n] => "RFC ".toList ++ n
  | [m, n] => "RFC ".toList ++ (m ++ (" and ".toList ++ ("RFC ".toList ++ n)))
  | k :: m :: n :: ns => serial ((n :: ns).getLast (List.cons_ne_nil n ns)) (k :: m :: (n :: ns).dropLast)

theorem closes_comma (rest : Text) : Closes ", ".toList rest :=
  ⟨[',', ' '].map fun c => (CharSet.only c).ignoreCase, rfl, rfl⟩

theorem closes_and (rest : Text) : Closes " and ".toList rest :=
  ⟨" and ".toList.map fun c => (CharSet.only c).ignoreCase, rfl, rfl⟩

/-- Whatever follows a number, some of it closes the number. -/
theorem exists_closes (v : Text) : ∃ g w, v = g ++ w ∧ Closes g w := by
  have hsome : (close.rows.find? (Cursor.sees · v)).isSome := by
    rw [List.find?_isSome]
    exact ⟨[], by simp [close_rows, closings], rfl⟩
  obtain ⟨row, hrow⟩ := Option.isSome_iff_exists.mp hsome
  have hsees := sees_of_find? hrow
  refine ⟨v.take row.length, v.drop row.length, (List.take_append_drop _ _).symm, row, ?_, ?_⟩
  · rwa [List.take_append_drop]
  · exact (List.length_take_of_le (length_le_of_sees hsees)).symm

/-- A list does not go on where nothing continues it. -/
theorem not_beginsNumber_of_leads (hv : continuation.leads (g ++ w) = false) (hg : Closes g w) : ¬BeginsNumber w := by
  rintro ⟨row', hrow', hsees'⟩
  obtain ⟨row, hfind, hlength⟩ := hg
  have hsees := sees_of_find? hfind
  have hboth : Cursor.sees (row ++ row') (g ++ w) = true := by
    rw [sees_append, hsees, hlength, List.drop_left, hsees', Bool.and_self]
  have hmem : row ++ row' ∈ continuation.rows :=
    List.mem_flatMap.mpr ⟨row, List.mem_of_find?_eq_some hfind, List.mem_map_of_mem hrow'⟩
  have hread := reads_of_row (u := []) bounded_continuation hmem hboth []
  have hleads := isSome_match? hread bounded_continuation.direct
  rw [leads, hleads] at hv
  cases hv

theorem not_figure_of_not_beginsNumber (h : ¬BeginsNumber w) : ∀ c ∈ w.head?, figure c = false := by
  intro c hc
  rw [Bool.eq_false_iff]
  intro hfigure
  obtain ⟨t, rfl⟩ := List.head?_eq_some_iff.mp hc
  refine h ⟨[figure], ?_, by simp [Cursor.sees, hfigure]⟩
  exact List.mem_flatMap.mpr ⟨[], List.mem_append_right _ (List.mem_singleton_self _), List.mem_singleton_self _⟩

/-- The last number of a list, with what closes it. -/
theorem exists_lists_last (hn : IsNumber n) (hv : continuation.leads v = false) :
    ∃ g w, v = g ++ w ∧ Lists [n] ("RFC ".toList ++ (n ++ g)) w := by
  obtain ⟨g, w, rfl, hg⟩ := exists_closes v
  have hnone := not_beginsNumber_of_leads hv hg
  have hlist := Lists.more (t := []) (w := w) hn hg (.inr ⟨rfl, not_figure_of_not_beginsNumber hnone⟩) (.done hnone)
  rw [List.append_nil] at hlist
  exact ⟨g, w, rfl, hlist⟩

theorem lists_conjunction (v : Text) : Lists [] [] (conjunction ++ v) := by
  refine .done ?_
  rintro ⟨row, hrow, hsees⟩
  have htake := Cursor.sees_take hsees 1
  rw [Cursor.sees_append_right (Nat.le_trans (List.length_take_le 1 row) (by decide))] at htake
  have hnone : ∀ row ∈ (Pattern.seq lead (one figure)).rows, Cursor.sees (row.take 1) conjunction = false := by
    decide +kernel
  rw [hnone row hrow] at htake
  cases htake

/-- A list with a comma before the conjunction is left there. -/
theorem exists_lists_serial (hnumbers : ∀ n ∈ ns, IsNumber n) (last v : Text) :
    ∃ t, serial last ns ++ v = t ++ (conjunction ++ (last ++ v)) ∧
      Lists ns t (conjunction ++ (last ++ v)) := by
  induction ns with
  | nil =>
    refine ⟨[], ?_, lists_conjunction (last ++ v)⟩
    rw [serial, List.append_assoc, List.nil_append]
  | cons n ns ih =>
    obtain ⟨hn, hnumbers⟩ := List.forall_mem_cons.mp hnumbers
    obtain ⟨t, ht, hlists⟩ := ih hnumbers
    refine ⟨"RFC ".toList ++ (n ++ (", ".toList ++ t)), ?_, .more hn (closes_comma _) (.inl (by decide)) hlists⟩
    simp only [serial, List.append_assoc, ht]

theorem not_opens_conjoined (hne : s ≠ []) (hs : conjunction = x ++ s) : ¬Opens (verbsOf r) (s ++ z) := by
  have hnone : ∀ k < 8, ∀ row ∈ (opening (verbsOf r)).rows,
      Cursor.sees (row.take (min 2 (8 - k))) (conjunction.drop k) = false := by
    cases r <;> decide +kernel
  have hlength : 8 = x.length + s.length := by
    rw [← List.length_append, ← hs]
    rfl
  have hpos := List.length_pos_of_ne_nil hne
  have hdrop := hnone x.length (by omega)
  rw [hs, List.drop_left, show 8 - x.length = s.length by omega] at hdrop
  exact not_opens_of_take _ (Nat.min_le_right ..) hdrop

theorem not_opens_digit {c : Char} (hc : CharSet.digit c) : ¬Opens (verbsOf r) ([c] ++ z) := by
  have hnone : ∀ row ∈ (opening (verbsOf r)).rows, Cursor.sees (row.take 1) [c] = false :=
    forall_digit (p := fun c => ∀ row ∈ (opening (verbsOf r)).rows, Cursor.sees (row.take 1) [c] = false)
      (by cases r <;> decide +kernel) hc
  exact not_opens_of_take 1 (Nat.le_refl 1) hnone

/-- No statement begins in the last number or in front of it. -/
theorem not_opens_conjunction (hn : IsNumber n) (hv : ∀ x y, v = x ++ y → ¬Opens (verbsOf r) y) :
    ∀ x y, conjunction ++ (n ++ v) = x ++ y → ¬Opens (verbsOf r) y := by
  have hnumber : ∀ x y, n ++ v = x ++ y → ¬Opens (verbsOf r) y := by
    intro x y hxy
    rcases List.append_eq_append_iff.mp hxy with ⟨a, -, hva⟩ | ⟨a, hna, rfl⟩
    · exact hv a y hva
    · cases a with
      | nil => exact hv [] v rfl
      | cons c a => exact not_opens_digit (hn.2 c (by rw [hna]; exact List.mem_append_right _ List.mem_cons_self))
  intro x y hxy
  rcases List.append_eq_append_iff.mp hxy with ⟨a, -, hna⟩ | ⟨a, hconj, rfl⟩
  · exact hnumber a y hna
  · cases a with
    | nil => exact hnumber [] (n ++ v) rfl
    | cons c a => exact not_opens_conjoined (List.cons_ne_nil c a) hconj

/-- How much of a list in English is read. -/
theorem exists_lists_english (hns : ns ≠ []) (hnumbers : ∀ n ∈ ns, IsNumber n) (hv : continuation.leads v = false)
    (hopens : ∀ x y, v = x ++ y → ¬Opens (verbsOf r) y) :
    ∃ t w, english ns ++ v = t ++ w ∧ Lists (if ns.length ≤ 2 then ns else ns.dropLast) t w ∧
      ∀ x y, w = x ++ y → ¬Opens (verbsOf r) y := by
  match ns, hns with
  | [n], _ =>
    obtain ⟨g, w, rfl, hlists⟩ := exists_lists_last (hnumbers n List.mem_cons_self) hv
    refine ⟨_, w, ?_, hlists, fun x y hxy => hopens (g ++ x) y (by rw [hxy, List.append_assoc])⟩
    simp only [english, List.append_assoc]
  | [m, n], _ =>
    obtain ⟨hm, hn⟩ := List.forall_mem_cons.mp hnumbers
    obtain ⟨g, w, rfl, hlists⟩ := exists_lists_last (hn n List.mem_cons_self) hv
    refine ⟨_, w, ?_, hlists.more hm (closes_and _) (.inl (by decide)), fun x y hxy => hopens (g ++ x) y ?_⟩
    · simp only [english, List.append_assoc]
    · rw [hxy, List.append_assoc]
  | k :: m :: n :: ns, _ =>
    have hsplit := List.dropLast_append_getLast (List.cons_ne_nil n ns)
    have hall : ∀ n' ∈ k :: m :: ((n :: ns).dropLast ++ [(n :: ns).getLast (List.cons_ne_nil n ns)]), IsNumber n' := by
      rwa [hsplit]
    rw [← List.cons_append, ← List.cons_append, List.forall_mem_append, List.forall_mem_singleton] at hall
    obtain ⟨t, ht, hlists⟩ := exists_lists_serial hall.1 ((n :: ns).getLast (List.cons_ne_nil n ns)) v
    exact ⟨t, _, ht, hlists, not_opens_conjunction hall.2 hopens⟩

/-- Of a list in English behind a verb all numbers are found if there are no more than two, and otherwise all but the
last. -/
theorem rfcNumbers_english (hverb : verb ∈ verbsOf r) (hns : ns ≠ []) (hnumbers : ∀ n ∈ ns, IsNumber n)
    (hu : (statementOf r).occursIn u = false) (hv : (statementOf r).occursIn v = false)
    (hends : continuation.leads v = false) :
    rfcNumbers (u ++ (verb.toList ++ ([' '] ++ (english ns ++ v)))) (statementOf r) =
      if ns.length ≤ 2 then ns else ns.dropLast := by
  obtain ⟨t, w, htext, hlists, hopens⟩ :=
    exists_lists_english (r := r) hns hnumbers hends fun x y => not_opens_suffix hv
  have hne : (if ns.length ≤ 2 then ns else ns.dropLast) ≠ [] := by
    split_ifs with hlength
    · exact hns
    · rw [← List.length_pos_iff, List.length_dropLast]
      omega
  have hfound := rfcNumbers_of_lists hverb hlists hne hu hopens
  rwa [List.append_assoc, List.append_assoc, ← htext] at hfound

/-- The text tells in English which documents are changed in one way, or says nothing of that. -/
inductive Tells (r : Relation) : Text → List Text → Prop
  | nothing {t : Text} (h : (statementOf r).occursIn t = false) : Tells r t []
  | list {verb : String} {u v : Text} {ns : List Text} (hverb : verb ∈ verbsOf r) (hns : ns ≠ [])
      (hnumbers : ∀ n ∈ ns, IsNumber n) (hu : (statementOf r).occursIn u = false)
      (hv : (statementOf r).occursIn v = false) (hends : continuation.leads v = false) :
      Tells r (u ++ (verb.toList ++ ([' '] ++ (english ns ++ v)))) ns

theorem rfcNumbers_of_tells (h : Tells r t ns) :
    rfcNumbers t (statementOf r) = if ns.length ≤ 2 then ns else ns.dropLast := by
  cases h with
  | list hverb hns hnumbers hu hv hends => exact rfcNumbers_english hverb hns hnumbers hu hv hends
  | nothing h =>
    have hnone : ∀ x y, t = x ++ y → (statementOf r).matchAt t.length (.amid ([] ++ x) y) = none := fun x y hxy =>
      matchAt_stated_eq_none (verbsOf_ne_nil r) (not_opens_suffix h hxy)
    rw [rfcNumbers, scan_eq_scanAfter, scanAfter_eq_nil hnone]
    rfl

end English

end DraftLint.Citation
