import DraftLint.Proofs.Heading
import DraftLint.Proofs.Plain.Extents
import DraftLint.Proofs.Plain.Listing

/-!
# Content of parts

A part goes from its last heading to the line that ends it.  That is the first one after the heading that ends
parts of its kind, or the end of the text.  So the lines alone tell which parts there are and what they hold.
-/

namespace DraftLint.Plain

/-- The line ends the part.  Every heading does; an abstract also ends in front of the status of the document and
of a line that is not indented. -/
def ends (p : Part) (line : Text) : Bool :=
  Heading.divides (Text.trim line) || p == .abstract &&
    (Text.startsWith "Status of".toList (Text.trim line) || !Text.startsWith [' ', ' '] line)

/-- The number of the first of these lines that ends the part after its heading. -/
def ending? (p : Part) (heading : Nat) (body : List (Nat × Text)) : Option Nat :=
  (body.find? fun l => heading < l.1 && ends p l.2).map (·.1)

theorem ending?_concat (p : Part) (heading : Nat) (body : List (Nat × Text)) (l : Nat × Text) :
    ending? p heading (body ++ [l]) =
      (ending? p heading body).or (if heading < l.1 ∧ ends p l.2 then some l.1 else none) := by
  unfold ending?
  rw [List.find?_append, Option.map_or]
  congr 1
  by_cases h : heading < l.1 ∧ ends p l.2 = true
  · simp [h.1, h.2]
  · rw [if_neg h, List.find?_cons_of_neg (by simpa using h)]
    rfl

theorem ending?_eq_none {p : Part} {heading n : Nat} {body : List (Nat × Text)} (hb : Text.Below n body)
    (h : n ≤ heading) : ending? p heading body = none := by
  rw [ending?, Option.map_eq_none_iff, List.find?_eq_none]
  intro l hl
  have hle := hb l hl
  simp only [Bool.and_eq_true, decide_eq_true_eq, not_and]
  omega

namespace Scan

/-- Parts that are closed end in front of the first line that ends them, and those that are open have none. -/
def Delimited (body : List (Nat × Text)) (s : Scan) : Prop :=
  ∀ p ≠ .header, (s.extents.get p).found →
    ending? p (s.extents.get p).start body =
      if (s.extents.get p).closed then some ((s.extents.get p).stop + 1) else none

/-- The line that names the document is the one after the title, if that can be seen. -/
structure Named (lines : List (Nat × Text)) (s : Scan) : Prop where
  slugLine_le : s.slugLine ≤ s.titleLine + 1
  slugLine_eq : s.title.isSome → ∀ l ∈ lines, l.1 = s.titleLine + 1 → Text.isVisible l.2 → s.slugLine = l.1

theorem delimited_initial : Delimited [] initial := by
  intro p _ hf
  have hget : initial.extents.get p = Extent.none := by
    cases p <;> rfl
  rw [hget] at hf
  cases hf

theorem named_initial : Named [] initial where
  slugLine_le := Nat.zero_le _
  slugLine_eq := by simp [initial]

section Steps

variable {lines body : List (Nat × Text)} {n : Nat} {line next : Text} {s : Scan} {p : Part}

theorem Tracked.get_closePart (h : Tracked lines body n s) (p : Part) :
    (s.closePart n).extents.get p =
      if s.part = some p then { s.extents.get p with stop := n, closed := true } else s.extents.get p := by
  rw [Scan.get_closePart]
  by_cases hp : s.part = some p
  · obtain ⟨hne, -, hc⟩ := (h.open_iff p).mp hp
    rw [if_pos ⟨hp, hc⟩, if_pos hp, Nat.max_eq_left (h.start_le p hne)]
  · rw [if_neg (fun hcontra => hp hcontra.1), if_neg hp]

theorem Tracked.leavesAbstract_iff (h : Tracked lines body n s) (hd : Heading.divides (Text.trim line) = false) :
    s.leavesAbstract line (Text.trim line) ↔ s.part = some .abstract ∧ ends .abstract line := by
  simp only [leavesAbstract, ends, hd, Bool.and_eq_true, beq_iff_eq, Bool.false_or, BEq.rfl, true_and,
    Bool.not_eq_true']
  constructor
  · rintro ⟨⟨hp, -⟩, hends⟩
    exact ⟨hp, hends⟩
  · rintro ⟨hp, hends⟩
    exact ⟨⟨hp, ((h.open_iff .abstract).mp hp).2.2⟩, hends⟩

/-- A line that is no heading ends the open part if it ends parts of that kind. -/
theorem Tracked.get_leave (h : Tracked lines body n s) (hd : Heading.divides (Text.trim line) = false) (p : Part) :
    (s.leave (n + 1) line (Text.trim line)).extents.get p =
      if s.part = some p ∧ ends p line then { s.extents.get p with stop := n, closed := true }
      else s.extents.get p := by
  have hleaves := h.leavesAbstract_iff hd
  unfold Scan.leave
  by_cases hl : s.leavesAbstract line (Text.trim line) = true
  · obtain ⟨hpart, hends⟩ := hleaves.mp hl
    rw [if_pos hl, Nat.add_sub_cancel, h.get_closePart, hpart]
    by_cases hp : p = .abstract
    · simp [hp, hends]
    · simp [Ne.symm hp]
  · have hnot : ¬(s.part = some p ∧ ends p line = true) := by
      rintro ⟨hpart, hends⟩
      -- Nothing but an abstract ends without a heading.
      have hp : p = .abstract := by
        simp only [ends, hd, Bool.false_or, Bool.and_eq_true, beq_iff_eq] at hends
        exact hends.1
      subst hp
      exact hl (hleaves.mpr ⟨hpart, hends⟩)
    rw [if_neg hl, if_neg hnot]

/-- What a line of the body does to the extent of a part: it opens the part, ends it, or leaves it alone. -/
theorem Tracked.get_readBody (h : Tracked lines body n s) (p : Part) :
    (s.readBody (n + 1) line (Text.trim line)).extents.get p =
      if Heading.opened? (Text.trim line) = some p then ⟨n + 1, 0, false⟩
      else if s.part = some p ∧ ends p line then { s.extents.get p with stop := n, closed := true }
      else s.extents.get p := by
  by_cases hd : Heading.divides (Text.trim line) = true
  · have hends : ends p line = true := by
      rw [ends, hd, Bool.true_or]
    rw [readBody_of_divides hd, Nat.add_sub_cancel]
    -- The open part is closed first, so that a heading which opens it again starts it anew.
    cases ho : Heading.opened? (Text.trim line) with
    | none => simpa [hends] using h.get_closePart p
    | some q =>
      have hopen := get_openPart q (n + 1) (s.closePart n) p
      rw [h.get_closePart] at hopen
      simpa [hends, eq_comm (a := q)] using hopen
  · rw [Bool.not_eq_true] at hd
    have ho : Heading.opened? (Text.trim line) ≠ some p := by
      intro hp
      rw [Heading.divides_of_opened? hp] at hd
      cases hd
    rw [readBody_of_not_divides hd, if_neg ho]
    exact (congrArg (Parts.get · p) (extents_keep _ _)).trans (h.get_leave hd p)

theorem Delimited.readBody (hd : Delimited body s) (h : Tracked lines body n s) (hb : Text.Below n body)
    (line : Text) :
    Delimited (body ++ [(n + 1, line)]) (s.readBody (n + 1) line (Text.trim line)) := by
  intro p hp hf
  rw [h.get_readBody] at hf ⊢
  by_cases ho : Heading.opened? (Text.trim line) = some p
  · rw [if_pos ho]
    exact ending?_eq_none (hb.concat line) (Nat.le_refl _)
  rw [if_neg ho] at hf ⊢
  have hopen : s.part = some p → ending? p (s.extents.get p).start body = none := by
    intro hpart
    obtain ⟨-, hfound, hc⟩ := (h.open_iff p).mp hpart
    rw [hd p hp hfound, hc]
    rfl
  by_cases he : s.part = some p ∧ ends p line
  · rw [if_pos he]
    have hlt : (s.extents.get p).start < n + 1 := Nat.lt_succ_of_le (h.start_le p hp)
    have hends : (s.extents.get p).start < n + 1 ∧ ends p line := ⟨hlt, he.2⟩
    rw [ending?_concat, hopen he.1, if_pos hends]
    rfl
  · rw [if_neg he] at hf ⊢
    cases hc : (s.extents.get p).closed with
    | true =>
      rw [ending?_concat, hd p hp hf, hc]
      rfl
    | false =>
      have hpart : s.part = some p := (h.open_iff p).mpr ⟨hp, hf, hc⟩
      have hnot : ¬((s.extents.get p).start < n + 1 ∧ ends p line) := fun hcontra => he ⟨hpart, hcontra.2⟩
      rw [ending?_concat, hopen hpart, if_neg hnot]
      rfl

theorem Delimited.readLine (hd : Delimited (s.bodyLines lines) s) (h : Tracked lines (s.bodyLines lines) n s)
    (hb : Text.Below n lines) (hf : Fronted n s) (line next : Text) :
    Delimited ((s.readLine (n + 1) line next).bodyLines (lines ++ [(n + 1, line)]))
      (s.readLine (n + 1) line next) := by
  cases moves_readLine hf hb line next with
  | body hl hs hlines =>
    rw [hlines, hs]
    have hnote : Delimited (s.bodyLines lines) (s.note (n + 1) line (Text.trim line) next) := hd
    exact hnote.readBody (h.note (n + 1) line (Text.trim line) next) (below_bodyLines hb) line
  | rest hsame hlines hnone =>
    rw [hlines]
    intro p hp
    rw [hsame.extents p hp]
    exact hd p hp

/-- The part that is open is ended by the end of the text. -/
theorem Delimited.closePart (hd : Delimited body s) (h : Tracked lines body n s) (hp : p ≠ .header)
    (hf : (s.extents.get p).found) :
    ((s.closePart n).extents.get p).stop + 1 = (ending? p (s.extents.get p).start body).getD (n + 1) := by
  rw [hd p hp hf, h.get_closePart]
  cases hc : (s.extents.get p).closed with
  | true =>
    have hpart : s.part ≠ some p := by
      intro hpart
      rw [((h.open_iff p).mp hpart).2.2] at hc
      cases hc
    rw [if_neg hpart]
    rfl
  | false =>
    rw [if_pos ((h.open_iff p).mpr ⟨hp, hf, hc⟩)]
    rfl

theorem slugLine_readBody (h : s.part ≠ some .header) (num : Nat) (line stripped : Text) :
    (s.readBody num line stripped).slugLine = s.slugLine := by
  have hw := congrArg Scan.slugLine (withoutParts_readBody num line stripped h)
  exact hw

/-- A line that does not come right after the title. -/
theorem Named.other (h : Named lines s) (hl : s.title.isSome → n + 1 = s.titleLine + 1 → Text.isVisible line = false) :
    Named (lines ++ [(n + 1, line)]) s := by
  refine ⟨h.slugLine_le, ?_⟩
  intro ht l hmem hnum hvisible
  rcases List.mem_append.mp hmem with hmem | hmem
  · exact h.slugLine_eq ht l hmem hnum hvisible
  · obtain rfl := List.mem_singleton.mp hmem
    rw [hl ht hnum] at hvisible
    cases hvisible

theorem Named.readLine (h : Named lines s) (hb : Text.Below n lines) (hf : Fronted n s) (line next : Text) :
    Named (lines ++ [(n + 1, line)]) (s.readLine (n + 1) line next) := by
  have hr := reads_readLine (n + 1) line next s
  have huntitled : s.title.isSome = false → Named (lines ++ [(n + 1, line)]) s := by
    intro ht
    refine h.other fun htitle => ?_
    rw [ht] at htitle
    cases htitle
  generalize s.readLine (n + 1) line next = s' at hr ⊢
  cases hr with
  | hidden hl count =>
    obtain ⟨hle, heq⟩ := h.other fun _ _ => hl
    exact ⟨hle, heq⟩
  | first hl hfound =>
    obtain ⟨hle, heq⟩ := huntitled (hf.untitled hfound)
    exact ⟨hle, heq⟩
  | front hl hfound hc hn =>
    obtain ⟨hle, heq⟩ := huntitled (hf.closed_eq ▸ hc)
    exact ⟨hle, heq⟩
  | title hl hfound hc hn =>
    -- The line after this one, which might name the document, is still to come.
    refine ⟨?_, ?_⟩
    · have hle := h.slugLine_le
      have htitle := hf.titleLine_le
      change s.slugLine ≤ n + 1 + 1
      omega
    · intro _ l hmem hnum
      have hle := hb.concat line l hmem
      change l.1 = n + 1 + 1 at hnum
      omega
  | slug hl hc ht hn =>
    refine ⟨Nat.le_of_eq hn, ?_⟩
    intro _ l hmem hnum _
    exact hn.trans hnum.symm
  | body hl hc hn =>
    have hpart := (hf.note (n + 1) line (Text.trim line) next).part_ne_header
    obtain ⟨hle, heq⟩ := h.other fun ht hnum => absurd ⟨ht, hnum⟩ hn
    refine ⟨?_, ?_⟩
    · rw [slugLine_readBody hpart, titleLine_readBody hpart]
      exact hle
    · rw [slugLine_readBody hpart, titleLine_readBody hpart, title_readBody hpart]
      exact heq

theorem Named.closePart (h : Named lines s) (num : Nat) : Named lines (s.closePart num) := by
  obtain ⟨hle, heq⟩ := h
  unfold Scan.closePart
  split
  · exact ⟨hle, heq⟩
  · exact ⟨hle, heq⟩

end Steps

theorem Reached.delimited {ls : List Text} {s : Scan} (h : Reached ls s) :
    Delimited (s.bodyLines (Text.numberFrom 1 ls)) s :=
  h.overLines (motive := fun lines s => Delimited (s.bodyLines lines) s) delimited_initial
    fun h hb ih => ih.readLine h.tracked hb h.fronted

theorem Reached.named {ls : List Text} {s : Scan} (h : Reached ls s) : Named (Text.numberFrom 1 ls) s :=
  h.overLines (motive := Named) named_initial fun h hb ih => ih.readLine hb h.fronted

end Scan

namespace Document

/-- The visible lines after the title, but for the one that names the document. -/
def textLines (d : Document) : List (Nat × Text) :=
  d.lines.filter fun l => d.scan.titleLine < l.1 && l.1 != d.scan.slugLine && Text.isVisible l.2

/-- The numbers of those lines that are worded as headings of the part. -/
def headings (d : Document) (p : Part) : List Nat :=
  (d.textLines.filter fun l => Heading.opens p (Text.trim l.2)).map (·.1)

/-- The number of the line that ends the part with this heading; the text itself ends after its last line. -/
def endOf (d : Document) (p : Part) (heading : Nat) : Nat :=
  (ending? p heading d.textLines).getD (d.lines.length + 1)

/-- No visible line lies between the heading and the line that ends the part. -/
def IsEmptyFrom (d : Document) (p : Part) (heading : Nat) : Prop :=
  ∀ l ∈ d.lines, heading < l.1 → l.1 < d.endOf p heading → Text.isVisible l.2 = false

instance (d : Document) (p : Part) (heading : Nat) : Decidable (d.IsEmptyFrom p heading) :=
  inferInstanceAs (Decidable (∀ l ∈ d.lines, _))

theorem named_ofText (fileName : Option Text) (t : Text) :
    Scan.Named (ofText fileName t).lines (ofText fileName t).scan :=
  (Scan.Reached.readLines (Text.lines (prepare t))).named.closePart _

/-- The lines after title and name are those of the body. -/
theorem textLines_ofText {fileName : Option Text} {t : Text} (h : (ofText fileName t).hasHeader) :
    (ofText fileName t).textLines = (ofText fileName t).bodyLines := by
  obtain ⟨hle, heq⟩ := named_ofText fileName t
  have ht : (ofText fileName t).scan.title.isSome := by
    rw [hasHeader, Bool.and_eq_true] at h
    exact h.2
  apply List.filter_congr
  intro l hl
  rw [ht, Bool.true_and]
  cases hvisible : Text.isVisible l.2 with
  | false => rw [Bool.and_false, Bool.and_false]
  | true =>
    have hslug := fun hnum => heq ht l hl hnum hvisible
    rw [Bool.and_true, Bool.and_true, Bool.eq_iff_iff]
    simp only [Bool.and_eq_true, decide_eq_true_eq, bne_iff_ne]
    omega

section OfText

variable {fileName : Option Text} {t : Text} {p : Part}

theorem start_ofText (h : (ofText fileName t).hasHeader) (hp : p ≠ .header) (hr : p ≠ .references) :
    ((ofText fileName t).scan.extents.get p).start = (((ofText fileName t).headings p).getLast?).getD 0 := by
  have hopens : ∀ l : Nat × Text, (Heading.opened? (Text.trim l.2) == some p) = Heading.opens p (Text.trim l.2) := by
    intro l
    rw [Bool.eq_iff_iff, beq_iff_eq]
    exact Heading.opened?_eq_some_iff hr
  rw [(settled_ofText fileName t).start_eq p hp, headings, textLines_ofText h, List.getLast?_map, opening]
  simp only [hopens]
  rfl

/-- A part is found exactly if it has a heading, and starts at the last one. -/
theorem found_iff_ofText (h : (ofText fileName t).hasHeader) (hp : p ≠ .header) (hr : p ≠ .references) (num : Nat) :
    ((ofText fileName t).headings p).getLast? = some num ↔
      ((ofText fileName t).scan.extents.get p).found ∧ ((ofText fileName t).scan.extents.get p).start = num := by
  have hstart := start_ofText h hp hr
  cases hlast : ((ofText fileName t).headings p).getLast? with
  | none =>
    rw [hlast] at hstart
    simp [Extent.found, hstart]
  | some last =>
    obtain ⟨l, hl, hnum⟩ := List.mem_map.mp (List.mem_of_getLast? hlast)
    have hpos : 0 < last := by
      have hline := (Text.bounds_of_mem_numberFrom (List.mem_filter.mp (List.mem_filter.mp hl).1).1).1
      omega
    rw [hlast] at hstart
    simp [Extent.found, hstart, hpos]

theorem stop_ofText (hp : p ≠ .header) (hf : ((ofText fileName t).scan.extents.get p).found) :
    ((ofText fileName t).scan.extents.get p).stop + 1 =
      (ending? p ((ofText fileName t).scan.extents.get p).start (ofText fileName t).bodyLines).getD
        ((ofText fileName t).lines.length + 1) := by
  have hreached := Scan.Reached.readLines (Text.lines (prepare t))
  have hlength : (ofText fileName t).lines.length = (Text.lines (prepare t)).length := Text.length_numberFrom _ _
  have hscan : (ofText fileName t).scan =
      (Scan.initial.readLines (Text.numberFrom 1 (Text.lines (prepare t)))).closePart
        (Text.lines (prepare t)).length := by
    rw [← hlength]
    rfl
  rw [bodyLines, hscan, Scan.bodyLines_closePart, Scan.start_closePart, hlength]
  rw [hscan, Extent.found, Scan.start_closePart] at hf
  exact hreached.delimited.closePart hreached.tracked hp hf

/-- A part that was found holds nothing exactly if it is empty from its last heading on. -/
theorem isEmpty_content_ofText (h : (ofText fileName t).hasHeader) (hp : p ≠ .header)
    (hf : ((ofText fileName t).scan.extents.get p).found) :
    (((ofText fileName t).scan.content.get p).getD []).isEmpty ↔
      (ofText fileName t).IsEmptyFrom p ((ofText fileName t).scan.extents.get p).start := by
  have hstop := stop_ofText hp hf
  rw [← textLines_ofText h] at hstop
  rw [(settled_ofText fileName t).content_eq p, if_pos ⟨hp, hf⟩, Option.getD_some, List.isEmpty_iff,
    Text.visibleBetween, List.map_eq_nil_iff, List.filter_eq_nil_iff]
  refine forall₂_congr fun l _ => ?_
  rw [endOf, ← hstop, Nat.lt_succ_iff]
  simp only [Bool.and_eq_true, decide_eq_true_eq, Bool.not_eq_true, not_and, and_imp]

end OfText

end Document

end DraftLint.Plain
