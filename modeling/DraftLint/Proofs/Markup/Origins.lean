import DraftLint.Markup.Document
import DraftLint.Proofs.Attempts
import DraftLint.Proofs.Markup.Encoding
import DraftLint.Proofs.Markup.ExternalEntity
import DraftLint.Proofs.Markup.Starts
import DraftLint.Proofs.Text.Placed

/-!
# Lines of a document and of what is left of it

The lines of elements are counted in the octets that are left when external entities have been taken out.  They are those
of the document as long as nothing that was taken out had a line end in it: only declarations can have one.
-/

namespace DraftLint

/-- The line on which place `n` of the octets lies. -/
def lineAt (bs : Octets) (n : Nat) : Nat :=
  1 + (bs.take n).count 0x0A

namespace Markup

section Elements

/-- The start tag of the element ends at place `k` of the octets, and the element has the line of that place. -/
structure Element.StartsBy (e : Element) (bs : Octets) (k : Nat) : Prop where
  tag : ∃ (enc : Encoding) (t : Text) (before tag after : Octets), bs = before ++ (tag ++ after) ∧
    before.length + tag.length = k + 1 ∧ enc.decode? tag = some t ∧ e.HasStartTag t
  close : bs[k]? = some 0x3E
  line : e.line = lineAt bs k

variable {e : Element} {es : List Element} {enc : Encoding} {line : Nat} {t : Text}

theorem Element.HasStartTag.ends (h : e.HasStartTag t) : ∃ u, t = u ++ ['>'] := by
  obtain ⟨n, -, htag⟩ := h
  cases htag with
  | @mk w close hn hw hclose =>
    simp only [List.mem_cons, List.not_mem_nil, or_false] at hclose
    rcases hclose with rfl | rfl
    · exact ⟨'<' :: (n.written ++ w), by simp⟩
    · exact ⟨'<' :: (n.written ++ (w ++ ['/'])), by simp⟩

/-- The start tags in a text are also in the octets that it is read from. -/
theorem Starts.exists_places (h : Starts line t es) (front : Octets) {rest : Octets}
    (hrest : enc.decode? rest = some t) (hline : line = 1 + front.count 0x0A) :
    ∃ ks : List Nat, ks.Pairwise (· < ·) ∧ (∀ k ∈ ks, front.length ≤ k) ∧
      List.Forall₂ (fun e k => e.StartsBy (front ++ rest) k) es ks := by
  induction h generalizing front rest with
  | none => exact ⟨[], .nil, List.forall_mem_nil _, .nil⟩
  | @next line before tag after e es htag hend h ih =>
    obtain ⟨a, _, rfl, ha, hrest⟩ := Encoding.decode?_append hrest
    obtain ⟨b, c, rfl, hb, hc⟩ := Encoding.decode?_append hrest
    obtain ⟨u, rfl⟩ := htag.ends
    obtain ⟨b', last, rfl, -, hlast⟩ := Encoding.decode?_append hb
    obtain rfl : last = [0x3E] := Encoding.eq_singleton_of_decode? hlast (by decide)
    have hcount {x : Octets} {s : Text} (hx : enc.decode? x = some s) : s.count '\n' = x.count 0x0A :=
      (Encoding.count_of_decode? (b := 0x0A) hx (by decide)).symm
    have hlines : e.line = 1 + (front ++ (a ++ (b' ++ [0x3E]))).count 0x0A := by
      rw [hend, hline, List.count_append, hcount ha, hcount hb, Nat.add_assoc, ← List.count_append, ← List.count_append]
    obtain ⟨ks, hks, hle, hall⟩ := ih (front ++ (a ++ (b' ++ [0x3E]))) hc hlines
    simp only [List.length_append, List.length_singleton] at hle
    refine ⟨(front ++ (a ++ b')).length :: ks, ?_, ?_, ?_⟩
    · refine List.pairwise_cons.mpr ⟨fun k hk => ?_, hks⟩
      have hlater := hle k hk
      simp only [List.length_append]
      omega
    · refine List.forall_mem_cons.mpr ⟨by simp, fun k hk => ?_⟩
      have hlater := hle k hk
      omega
    · have hbs : front ++ (a ++ (b' ++ [0x3E])) ++ c = front ++ (a ++ (b' ++ [0x3E] ++ c)) := by simp
      rw [hbs] at hall
      refine .cons ⟨⟨enc, u ++ ['>'], front ++ a, b' ++ [0x3E], c, by simp, by simp; omega, hb, htag⟩, ?_, ?_⟩ hall
      · have hat : front ++ (a ++ (b' ++ [0x3E] ++ c)) = (front ++ (a ++ b')) ++ 0x3E :: c := by simp
        rw [hat, List.getElem?_append_right (Nat.le_refl _)]
        simp
      · have hat : front ++ (a ++ (b' ++ [0x3E] ++ c)) = (front ++ (a ++ b')) ++ 0x3E :: c := by simp
        rw [hlines, lineAt, hat, List.take_left]
        simp

/-- The elements of a document stand in the octets that are left of it, in the order of the tree. -/
theorem Document.exists_places {name : Option Text} {bs : Octets} {d : Document} (h : ofOctets name bs = .ok d) :
    ∃ ks : List Nat, ks.Pairwise (· < ·) ∧
      List.Forall₂ (fun e k => e.StartsBy (ExternalEntity.extract bs).1 k) d.root.all ks := by
  unfold ofOctets at h
  dsimp only at h
  split at h
  · next root hroot =>
    cases h
    obtain ⟨t, ht, hread⟩ := Option.bind_eq_some_iff.mp hroot
    obtain ⟨enc, mark, rest, hbs, hmark, hrest⟩ := exists_encoding_of_decode? ht
    have hline : 1 = 1 + mark.count 0x0A := by rw [List.count_eq_zero.mpr hmark]
    obtain ⟨ks, hks, -, hall⟩ := (Element.starts_of_ofText? hread).exists_places mark hrest hline
    rw [← hbs] at hall
    exact ⟨ks, hks, hall⟩
  · cases h

end Elements
end Markup

namespace Markup.ExternalEntity

open Pattern Placed

/-- The characters that stand for the octets that are kept, with their places in the document. -/
def kept (bs : Octets) : Placed :=
  (extract bs).2.foldl (fun l e => without e.reference 0 l)
    ((spread bs).zipIdx.filter fun x => !covers (declaration.scan (spread bs)) x.2)

/-- The places in the document of the octets that are kept. -/
def origins (bs : Octets) : List Nat :=
  (kept bs).map (·.2)

/-- How many line ends in declarations stand before a place of the document. -/
def hiddenLines (bs : Octets) (n : Nat) : Nat :=
  (spread bs).zipIdx.countP fun x => x.1 == '\n' && x.2 < n && covers (declaration.scan (spread bs)) x.2

variable {bs : Octets} {es : List ExternalEntity} {l : Placed} {k n : Nat}

section Kept

theorem text_foldl_without (es : List ExternalEntity) (l : Placed) :
    text (es.foldl (fun l e => without e.reference 0 l) l) =
      es.foldl (fun t e => Text.replaceAll e.reference [] t) (text l) := by
  induction es generalizing l with
  | nil => rfl
  | cons e es ih =>
    rw [List.foldl_cons, List.foldl_cons, ih, text_without]
    rfl

theorem foldl_without_sublist (es : List ExternalEntity) (l : Placed) :
    (es.foldl (fun l e => without e.reference 0 l) l).Sublist l := by
  induction es generalizing l with
  | nil => exact .refl l
  | cons e es ih => exact (ih _).trans (without_sublist _ 0 l)

theorem countP_foldl_without {f : Char × Nat → Bool} (h : ∀ e ∈ es, ∀ x, f x → x.1 ∉ e.reference) (l : Placed) :
    (es.foldl (fun l e => without e.reference 0 l) l).countP f = l.countP f := by
  induction es generalizing l with
  | nil => rfl
  | cons e es ih =>
    obtain ⟨he, hes⟩ := List.forall_mem_cons.mp h
    rw [List.foldl_cons, ih hes, countP_without he 0 l (by simp)]

theorem matchAt_declaration_advances {fuel : Nat} {c : Cursor} {m : Match}
    (h : declaration.matchAt fuel c = some m) : c.pos < m.stop.pos := by
  obtain ⟨w, hw⟩ := reads_of_matchAt h
  obtain ⟨d, rfl⟩ := exists_declaration_of_reads hw
  have hpos : m.stop.pos = c.pos + d.text.length := hw.advance.2
  have hlength := List.length_pos_iff.mpr d.text_ne_nil
  omega

theorem kept_sublist_uncovered (bs : Octets) :
    (kept bs).Sublist ((spread bs).zipIdx.filter fun x => !covers (declaration.scan (spread bs)) x.2) :=
  foldl_without_sublist _ _

theorem kept_sublist (bs : Octets) : (kept bs).Sublist (spread bs).zipIdx :=
  (kept_sublist_uncovered bs).trans List.filter_sublist

theorem ordered_kept (bs : Octets) : Ordered (kept bs) :=
  List.Pairwise.sublist (kept_sublist bs) (ordered_zipIdx (spread bs) 0)

/-- The characters that are kept are those of the octets that are left. -/
theorem text_kept (bs : Octets) : text (kept bs) = spread (extract bs).1 := by
  have hkept : text (kept bs) = (extract bs).2.foldl (fun t e => Text.replaceAll e.reference [] t)
      (declaration.substitute [] (spread bs)) := by
    rw [kept, text_foldl_without, text_uncovered fun _ _ => matchAt_declaration_advances]
  have hextract : (extract bs).1 = gather (text (kept bs)) := by
    rw [hkept]
    rfl
  rw [hextract, spread_gather]
  intro c hc
  have hmem := ((kept_sublist bs).map (·.1)).subset hc
  rw [List.zipIdx_map_fst] at hmem
  exact toNat_lt_of_mem_spread hmem

/-- An octet that is kept comes from a place outside all declarations. -/
theorem exists_of_origins (h : (origins bs)[k]? = some n) :
    ∃ c, (kept bs)[k]? = some (c, n) ∧ (spread bs)[n]? = some c ∧ covers (declaration.scan (spread bs)) n = false := by
  rw [origins, List.getElem?_map, Option.map_eq_some_iff] at h
  obtain ⟨⟨c, _⟩, hk, rfl⟩ := h
  have hmem := (kept_sublist_uncovered bs).subset (List.mem_of_getElem? hk)
  rw [List.mem_filter, List.mk_mem_zipIdx_iff_getElem?, Bool.not_eq_true'] at hmem
  exact ⟨c, hk, hmem.1, hmem.2⟩

theorem length_origins (bs : Octets) : (origins bs).length = (extract bs).1.length := by
  have hlength := congrArg List.length (text_kept bs)
  rw [text, spread, List.length_map, List.length_map] at hlength
  rw [origins, List.length_map, hlength]

/-- The octets that are kept are those at their places in the document. -/
theorem getElem?_of_origins (h : (origins bs)[k]? = some n) : (extract bs).1[k]? = bs[n]? := by
  obtain ⟨c, hk, hn, -⟩ := exists_of_origins h
  have hchar : (spread (extract bs).1)[k]? = (spread bs)[n]? := by
    rw [← text_kept, text, List.getElem?_map, hk, hn]
    rfl
  rw [spread, spread, List.getElem?_map, List.getElem?_map] at hchar
  exact Option.map_injective Utf8.ofNat_injective hchar

theorem origins_increasing (bs : Octets) : (origins bs).Pairwise (· < ·) :=
  List.pairwise_map.mpr (ordered_kept bs)

end Kept

section Lines

theorem lineAt_eq (bs : Octets) (n : Nat) : lineAt bs n = 1 + ((spread bs).take n).count '\n' := by
  rw [lineAt, spread, ← List.map_take]
  exact congrArg (1 + ·) (List.count_map_of_injective _ _ Utf8.ofNat_injective 0x0A).symm

theorem not_mem_reference {e : ExternalEntity} (h : e ∈ (extract bs).2) : '\n' ∉ e.reference := by
  intro hmem
  simp only [reference, List.cons_append, List.mem_cons, List.mem_append, List.not_mem_nil, or_false] at hmem
  rcases hmem with heq | hname | heq
  · exact absurd heq (by decide)
  · exact absurd (nameOctet_of_mem h _ hname) (by decide)
  · exact absurd heq (by decide)

/-- What is left has the line ends before a kept octet that the document has there, but for those in declarations. -/
theorem lineAt_origin (h : (origins bs)[k]? = some n) : lineAt bs n = lineAt (extract bs).1 k + hiddenLines bs n := by
  obtain ⟨c, hk, hn, -⟩ := exists_of_origins h
  have hplace : (spread bs).zipIdx[n]? = some (c, n) := by
    rw [List.getElem?_zipIdx, hn]
    simp
  have hleft := (ordered_kept bs).count_take hk '\n'
  have hall := (ordered_zipIdx (spread bs) 0).count_take hplace '\n'
  rw [text_kept] at hleft
  rw [text_zipIdx] at hall
  have hfree : ∀ e ∈ (extract bs).2, ∀ x : Char × Nat, (x.1 == '\n' && decide (x.2 < n)) = true →
      x.1 ∉ e.reference := by
    intro e he x hx
    rw [Bool.and_eq_true, beq_iff_eq] at hx
    rw [hx.1]
    exact not_mem_reference he
  have hreferences := countP_foldl_without hfree
    ((spread bs).zipIdx.filter fun x => !covers (declaration.scan (spread bs)) x.2)
  have hdeclarations := List.countP_eq_countP_filter_add (spread bs).zipIdx (fun x => x.1 == '\n' && x.2 < n)
    fun x => covers (declaration.scan (spread bs)) x.2
  have hhidden : hiddenLines bs n = ((spread bs).zipIdx.filter fun x =>
      covers (declaration.scan (spread bs)) x.2).countP fun x => x.1 == '\n' && x.2 < n := by
    rw [List.countP_filter]
    rfl
  rw [lineAt_eq, lineAt_eq, hall, hleft, hdeclarations, hhidden, kept, hreferences]
  omega

/-- A place that a match covers shows a character of the match. -/
theorem mem_text_iff {p : Pattern} {t : Text} {m : Match} (h : m ∈ p.scan t) {c : Char} :
    c ∈ m.text ↔ ∃ n, t[n]? = some c ∧ m.start.pos ≤ n ∧ n < m.stop.pos := by
  obtain ⟨u, v, rfl, hmatch⟩ := exists_amid_of_mem_scan h
  have hstart := start_of_matchAt hmatch
  have htext : m.text = v.take (m.stop.pos - u.length) := by
    rw [Match.text, Match.between, hstart]
    rfl
  have hpos : m.start.pos = u.length := by
    rw [hstart]
    rfl
  rw [htext, hpos, List.mem_iff_getElem?]
  constructor
  · rintro ⟨i, hi⟩
    rw [List.getElem?_take] at hi
    split at hi
    · next hlt =>
      refine ⟨u.length + i, ?_, by omega, by omega⟩
      rw [List.getElem?_append_right (by omega), Nat.add_sub_cancel_left, hi]
    · cases hi
  · rintro ⟨n, hn, hle, hlt⟩
    refine ⟨n - u.length, ?_⟩
    rw [List.getElem?_append_right hle] at hn
    rw [List.getElem?_take, if_pos (by omega), hn]

theorem hiddenLines_eq_zero_iff : hiddenLines bs n = 0 ↔
    ∀ m ∈ declaration.scan (spread bs), ∀ q,
      (spread bs)[q]? = some '\n' → m.start.pos ≤ q → q < m.stop.pos → n ≤ q := by
  rw [hiddenLines, List.countP_eq_zero]
  constructor
  · intro h m hm q hq hle hlt
    have hmem : ('\n', q) ∈ (spread bs).zipIdx := List.mk_mem_zipIdx_iff_getElem?.mpr hq
    have hcovered : covers (declaration.scan (spread bs)) q :=
      List.any_eq_true.mpr ⟨m, hm, by simp [hle, hlt]⟩
    have hnone := h _ hmem
    simpa [hcovered] using hnone
  · rintro h ⟨c, q⟩ hmem hcounted
    rw [List.mk_mem_zipIdx_iff_getElem?] at hmem
    simp only [Bool.and_eq_true, beq_iff_eq, decide_eq_true_eq] at hcounted
    obtain ⟨⟨rfl, hlt⟩, hcovered⟩ := hcounted
    obtain ⟨m, hm, hplace⟩ := List.any_eq_true.mp hcovered
    rw [Bool.and_eq_true, decide_eq_true_eq, decide_eq_true_eq] at hplace
    exact absurd (h m hm q hmem hplace.1 hplace.2) (Nat.not_le.mpr hlt)

/-- All octets that are kept stay on their lines exactly if no declaration with a line end in it stands before one. -/
theorem lines_kept_iff (bs : Octets) :
    (∀ k n, (origins bs)[k]? = some n → lineAt (extract bs).1 k = lineAt bs n) ↔
      ∀ m ∈ declaration.scan (spread bs), '\n' ∈ m.text → ∀ n ∈ origins bs, n < m.start.pos := by
  have hstays {k n : Nat} (hk : (origins bs)[k]? = some n) :
      lineAt (extract bs).1 k = lineAt bs n ↔ hiddenLines bs n = 0 := by
    have hline := lineAt_origin hk
    omega
  constructor
  · intro h m hm hend n hn
    obtain ⟨k, hk⟩ := List.mem_iff_getElem?.mp hn
    obtain ⟨q, hq, hle, hlt⟩ := (mem_text_iff hm).mp hend
    have hbefore := hiddenLines_eq_zero_iff.mp ((hstays hk).mp (h k n hk)) m hm q hq hle hlt
    obtain ⟨c, -, -, hfree⟩ := exists_of_origins hk
    rw [covers, List.any_eq_false] at hfree
    have hout := hfree m hm
    rw [Bool.and_eq_true, decide_eq_true_eq, decide_eq_true_eq] at hout
    omega
  · intro h k n hk
    refine (hstays hk).mpr (hiddenLines_eq_zero_iff.mpr fun m hm q hq hle hlt => ?_)
    have hbefore := h m hm ((mem_text_iff hm).mpr ⟨q, hq, hle, hlt⟩) n (List.mem_of_getElem? hk)
    omega

/-- Every octet that is left comes from a place of the document, in order, and has the line that it had there, less the
line ends in declarations before it.  So all lines are kept exactly if no declaration with a line end in it stands before
something that is left.  The line of an element is that of the end of its start tag in what is left, so what is missing
to its line in the document are the line ends in declarations before it. -/
theorem lines_of_extract (bs : Octets) :
    (origins bs).length = (extract bs).1.length ∧ (origins bs).Pairwise (· < ·) ∧
    (∀ k n, (origins bs)[k]? = some n →
      (extract bs).1[k]? = bs[n]? ∧ lineAt bs n = lineAt (extract bs).1 k + hiddenLines bs n) ∧
    ((∀ k n, (origins bs)[k]? = some n → lineAt (extract bs).1 k = lineAt bs n) ↔
      ∀ m ∈ declaration.scan (spread bs), '\n' ∈ m.text → ∀ n ∈ origins bs, n < m.start.pos) ∧
    ∀ name d, Document.ofOctets name bs = .ok d → ∃ ks : List Nat, ks.Pairwise (· < ·) ∧
      List.Forall₂ (fun e k => e.StartsBy (extract bs).1 k ∧
        ∃ n, (origins bs)[k]? = some n ∧ lineAt bs n = e.line + hiddenLines bs n) d.root.all ks := by
  refine ⟨length_origins bs, origins_increasing bs, fun k n hk => ⟨getElem?_of_origins hk, lineAt_origin hk⟩,
    lines_kept_iff bs, fun name d hd => ?_⟩
  obtain ⟨ks, hks, hall⟩ := Document.exists_places hd
  refine ⟨ks, hks, hall.imp fun e k hstarts => ⟨hstarts, ?_⟩⟩
  have hlt : k < (origins bs).length := by
    rw [length_origins]
    exact (List.getElem?_eq_some_iff.mp hstarts.close).1
  have hk := List.getElem?_eq_getElem hlt
  refine ⟨_, hk, ?_⟩
  rw [lineAt_origin hk, hstarts.line]

/-- A declaration on two lines moves the root element, which ends the document on its third line, to the second. -/
theorem lines_moved : ∃ bs k n, (origins bs)[k]? = some n ∧ n + 1 = bs.length ∧ lineAt bs n = 3 ∧
    lineAt (extract bs).1 k = 2 ∧ ∃ d, Document.ofOctets none bs = .ok d ∧ d.root.line = 2 := by
  refine ⟨Utf8.encode "<!DOCTYPE rfc [<!ENTITY a\nSYSTEM \"x\">]>\n<rfc/>".toList, 23, 45, ?_, ?_, ?_, ?_, ?_⟩
  · decide +kernel
  · decide +kernel
  · decide +kernel
  · decide +kernel
  · exact Attempts.exists_of_decide (by decide +kernel)

end Lines
end Markup.ExternalEntity
end DraftLint
