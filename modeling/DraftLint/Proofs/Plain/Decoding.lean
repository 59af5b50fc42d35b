import DraftLint.Plain.Document
import DraftLint.Proofs.Text.LineEnds
import DraftLint.Proofs.Text.Lines
import DraftLint.Proofs.Text.Utf8
import Mathlib.Data.List.TakeWhile

/-!
# The place of an octet that no character has

Octets are read as the document of the text whose octets they are.  If they are not those of a text, then the first octet
that goes on as no character does is told, by line and column.  The lines are told apart by line feeds alone, but a document
has a line end at a carriage return as well: the place is right exactly if no carriage return stands alone before it.
-/

namespace DraftLint.Plain

open Utf8
open String (utf8EncodeChar)

variable {b : UInt8} {u bs : Octets} {t : Text}

/-- The carriage returns without a line feed behind them. -/
def loneReturns : Octets → Nat
  | [] => 0
  | b :: bs => (if b = 0x0D ∧ bs.head? ≠ some 0x0A then 1 else 0) + loneReturns bs

/-- The line ends: a carriage return, a line feed, or the two in a row. -/
def lineEnds (bs : Octets) : Nat :=
  bs.count 0x0A + loneReturns bs

/-- The octets on the last line. -/
def lastLine (bs : Octets) : Octets :=
  (bs.reverse.takeWhile fun b => b ≠ 0x0A ∧ b ≠ 0x0D).reverse

/-- What is told is the octet with the line that it is on, all line ends counted, and where on the line it is. -/
def TellsPlace (before : Octets) (octet : UInt8) (u : Unreadable) : Prop :=
  u = .badOctet (lineEnds before + 1) octet ((lastLine before).length + 1)

section LineEnds

theorem loneReturns_append (h : 0x0D ∉ u) : loneReturns (u ++ bs) = loneReturns bs := by
  induction u with
  | nil => rfl
  | cons b u ih =>
    obtain ⟨hb, hu⟩ := List.ne_and_not_mem_of_not_mem_cons h
    rw [List.cons_append, loneReturns, if_neg fun h => hb h.1.symm, ih hu, Nat.zero_add]

theorem lineEnds_append (hfeed : 0x0A ∉ u) (hreturn : 0x0D ∉ u) : lineEnds (u ++ bs) = lineEnds bs := by
  rw [lineEnds, List.count_append, List.count_eq_zero.mpr hfeed, loneReturns_append hreturn, Nat.zero_add, lineEnds]

theorem lineEnds_feed (bs : Octets) : lineEnds (0x0A :: bs) = lineEnds bs + 1 := by
  rw [lineEnds, List.count_cons_self, loneReturns, if_neg fun h => absurd h.1 (by decide), Nat.zero_add, lineEnds,
    Nat.add_right_comm]

theorem lineEnds_return (h : bs.head? ≠ some 0x0A) : lineEnds (0x0D :: bs) = lineEnds bs + 1 := by
  rw [lineEnds, List.count_cons_of_ne (by decide), loneReturns, if_pos ⟨rfl, h⟩, lineEnds, Nat.add_comm 1, Nat.add_assoc]

theorem lineEnds_both (bs : Octets) : lineEnds (0x0D :: 0x0A :: bs) = lineEnds bs + 1 := by
  have hreturn : loneReturns (0x0D :: 0x0A :: bs) = loneReturns (0x0A :: bs) := by
    rw [loneReturns, if_neg fun h => h.2 rfl, Nat.zero_add]
  rw [lineEnds, List.count_cons_of_ne (by decide), hreturn, ← lineEnds, lineEnds_feed]

/-- A carriage return with no line feed on its line is a lone one. -/
theorem not_mem_return (hfeed : 0x0A ∉ u) (h : loneReturns u = 0) : 0x0D ∉ u := by
  induction u with
  | nil => exact List.not_mem_nil
  | cons b u ih =>
    have hu := (List.ne_and_not_mem_of_not_mem_cons hfeed).2
    rw [loneReturns, Nat.add_eq_zero_iff] at h
    refine List.not_mem_cons_of_ne_of_not_mem (fun hb => ?_) (ih hu h.2)
    have hhead : u.head? ≠ some 0x0A := fun hc => hu (List.mem_of_head? hc)
    rw [if_pos ⟨hb.symm, hhead⟩] at h
    exact Nat.one_ne_zero h.1

theorem loneReturns_of_append (h : loneReturns (u ++ bs) = 0) : loneReturns bs = 0 := by
  induction u with
  | nil => exact h
  | cons b u ih => exact ih (Nat.add_eq_zero_iff.mp h).2

/-- The octets behind the last line feed are those on the last line if there are no lone carriage returns. -/
theorem lastLine_reverse (h : loneReturns bs = 0) : (lastLine bs).reverse = bs.reverse.takeWhile (· != 0x0A) := by
  have hsplit := List.takeWhile_append_dropWhile (p := fun b : UInt8 => b != 0x0A) (l := bs.reverse)
  have hline : 0x0D ∉ (bs.reverse.takeWhile (· != 0x0A)).reverse := by
    refine not_mem_return (fun hmem => ?_) (loneReturns_of_append (u := (bs.reverse.dropWhile (· != 0x0A)).reverse) ?_)
    · exact absurd (List.mem_takeWhile_imp (List.mem_reverse.mp hmem)) (by decide)
    · rw [← List.reverse_append, hsplit, List.reverse_reverse, h]
  have hstop : lastLine bs = ((bs.reverse.takeWhile (· != 0x0A)).takeWhile (· != 0x0D)).reverse := by
    rw [lastLine, List.takeWhile_takeWhile]
    simp [and_comm]
  rw [hstop, List.reverse_reverse, List.takeWhile_eq_self_iff]
  rintro c hc
  rw [bne_iff_ne]
  rintro rfl
  exact hline (List.mem_reverse.mpr hc)

/-- No octet of a character is a line end, except for the line ends themselves. -/
theorem not_mem_utf8EncodeChar {c : Char} (hb : b.toNat < 0x80) (hc : c ≠ Char.ofNat b.toNat) : b ∉ utf8EncodeChar c := by
  rw [← List.count_eq_zero, count_utf8EncodeChar c hb, List.count_eq_zero]
  exact fun hmem => hc (List.mem_singleton.mp hmem).symm

/-- The octets of a text begin with a line feed only if the text does. -/
theorem head?_encode_ne (h : ∀ t', t ≠ '\n' :: t') : (encode t).head? ≠ some 0x0A := by
  cases t with
  | nil => nofun
  | cons c t =>
    have hc : c ≠ Char.ofNat (0x0A : UInt8).toNat := fun hc => h t (by rw [hc]; rfl)
    obtain ⟨b, tail, hencode⟩ := List.exists_cons_of_ne_nil (utf8EncodeChar_ne_nil c)
    have hmem := not_mem_utf8EncodeChar (b := 0x0A) (by decide) hc
    rw [encode_cons, hencode, List.cons_append, List.head?_cons, ne_eq, Option.some_inj]
    rintro rfl
    exact hmem (by rw [hencode]; exact List.mem_cons_self)

/-- A text and its octets have the same line ends. -/
theorem count_unifyLineEnds (t : Text) : (Text.unifyLineEnds t).count '\n' = lineEnds (encode t) := by
  have hfeed : utf8EncodeChar '\n' = [0x0A] := utf8EncodeChar_ofNat (b := 0x0A) (by decide)
  have hreturn : utf8EncodeChar '\r' = [0x0D] := utf8EncodeChar_ofNat (b := 0x0D) (by decide)
  fun_induction Text.unifyLineEnds t with
  | case1 => rfl
  | case2 t ih =>
    rw [List.count_cons_self, ih, encode_cons, encode_cons, hreturn, hfeed, List.singleton_append, List.singleton_append,
      lineEnds_both]
  | case3 t ht ih =>
    rw [List.count_cons_self, ih, encode_cons, hreturn, List.singleton_append, lineEnds_return (head?_encode_ne ht)]
  | case4 c t _ hc ih =>
    by_cases hnewline : c = '\n'
    · rw [hnewline, List.count_cons_self, ih, encode_cons, hfeed, List.singleton_append, lineEnds_feed]
    · rw [List.count_cons_of_ne hnewline, ih, encode_cons, lineEnds_append
        (not_mem_utf8EncodeChar (by decide) hnewline) (not_mem_utf8EncodeChar (by decide) fun h => hc h)]

/-- The lines of a document are those that the line ends divide its text into. -/
theorem length_lines_ofText (fileName : Option Text) (t : Text) :
    (Document.ofText fileName t).lines.length = lineEnds (encode t) + 1 := by
  rw [Document.lines, Text.numberedLines, Text.length_numberFrom, Text.lines, Text.length_splitOn, ← count_unifyLineEnds]
  exact congrArg (· + 1) (Text.count_newline_expandTabsFrom 0 (Text.unifyLineEnds t))

end LineEnds

section Place

variable {fileName : Option Text} {octet : UInt8} {rest : Octets}

/-- The place that is told is right if there are no lone carriage returns, and on a wrong line if there are some. -/
theorem tellsPlace_badOctet_iff (before : Octets) (octet : UInt8) :
    TellsPlace before octet (badOctet before octet) ↔ loneReturns before = 0 := by
  rw [TellsPlace, badOctet, Unreadable.badOctet.injEq, lineEnds]
  constructor
  · rintro ⟨hline, -⟩
    omega
  · intro h
    refine ⟨by rw [h, Nat.add_zero], rfl, ?_⟩
    rw [← lastLine_reverse h, List.length_reverse]

theorem decode_encode_append (t : Text) (h : Breaks (octet :: rest)) :
    decode (encode t ++ octet :: rest) = .error (badOctet (encode t) octet) := by
  have hdecode := Utf8.decode_encode_append t h
  simp only [decode, hdecode, List.take_left, List.drop_left, List.headD_cons]

/-- Octets of a text are read as its document.  Others are the octets of a text and then one with which no character goes
on, and that one is told, with one more line than there are line feeds before it and with its place behind the last of
them.  The document of the text before it ends on the line that all line ends count to.  That is the line that is told,
and the place on it too, exactly if there is no carriage return without a line feed behind it. -/
theorem ofOctets_place (fileName : Option Text) (bs : Octets) :
    (∀ t, bs = encode t → Document.ofOctets fileName bs = .ok (Document.ofText fileName t)) ∧
      ((∀ t, bs ≠ encode t) → ∃ before octet rest, bs = encode before ++ octet :: rest ∧ Breaks (octet :: rest) ∧
        ∃ u, Document.ofOctets fileName bs = .error u ∧ u.code = "TXT_PARSING_FAILED" ∧
          u = .badOctet ((encode before).count 0x0A + 1) octet
            (((encode before).reverse.takeWhile (· != 0x0A)).length + 1) ∧
          (Document.ofText fileName before).lines.length = lineEnds (encode before) + 1 ∧
          (TellsPlace (encode before) octet u ↔ loneReturns (encode before) = 0)) := by
  constructor
  · rintro t rfl
    rw [Document.ofOctets, decode, decode_encode]
    rfl
  · intro h
    obtain ⟨t, rest, rfl, rfl | hbreak⟩ := exists_encode_append bs
    · exact absurd (List.append_nil _) (h t)
    · obtain ⟨octet, rest, rfl⟩ := List.exists_cons_of_ne_nil hbreak.1
      refine ⟨t, octet, rest, rfl, hbreak, badOctet (encode t) octet, ?_, rfl, rfl, length_lines_ofText fileName t,
        tellsPlace_badOctet_iff (encode t) octet⟩
      rw [Document.ofOctets, decode_encode_append t hbreak]
      rfl

/-- An octet that begins no character stands after a line that ends in a carriage return and a line feed. -/
theorem ofOctets_place_after_line :
    Document.ofOctets none (encode ['é', '\r', '\n']) = .ok (.ofText none ['é', '\r', '\n']) ∧
      ∃ u, Document.ofOctets none (encode ['é', '\r', '\n'] ++ [0xFF]) = .error u ∧ u.code = "TXT_PARSING_FAILED" := by
  refine ⟨(ofOctets_place none _).1 _ rfl, ?_⟩
  have hnot : ∀ t, encode ['é', '\r', '\n'] ++ [0xFF] ≠ encode t := by
    intro t h
    have herror : Utf8.decode (encode ['é', '\r', '\n'] ++ [0xFF]) = .error 4 := by decide +kernel
    rw [h, decode_encode] at herror
    cases herror
  obtain ⟨_, _, _, _, _, u, hu, hcode, _⟩ := (ofOctets_place none _).2 hnot
  exact ⟨u, hu, hcode⟩

/-- The octet after a carriage return is told to be the third on line 1, and is the first on line 2. -/
theorem not_tellsPlace : ¬∃ u, Document.ofOctets none (encode ['a', '\r'] ++ [0xFF]) = .error u ∧
    TellsPlace (encode ['a', '\r']) 0xFF u := by
  rintro ⟨u, hu, htells⟩
  have hplace : Document.ofOctets none (encode ['a', '\r'] ++ [0xFF]) = .error (.badOctet 1 0xFF 3) := by
    rw [Document.ofOctets]
    have hdecode : decode (encode ['a', '\r'] ++ [0xFF]) = .error (.badOctet 1 0xFF 3) := by decide +kernel
    rw [hdecode]
    rfl
  rw [hplace, Except.error.injEq] at hu
  rw [TellsPlace, ← hu] at htells
  revert htells
  decide +kernel

end Place

end DraftLint.Plain
