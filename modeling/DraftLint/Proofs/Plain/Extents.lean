import DraftLint.Proofs.Plain.Run

/-!
# Extents of parts

While a text is read, a part is open exactly if it is the part in hand.  Once all lines are read every
part that was found is closed, no two of them overlap, and each holds the visible lines from the last
heading that opened it to its end.
-/

namespace DraftLint.Plain

/-- The last line of a part when `n` lines are read; a part that is open goes on to the last one. -/
def Extent.reach (n : Nat) (e : Extent) : Nat :=
  if e.closed then e.stop else n

/-- The number of the last of these lines that opens the part, or zero. -/
def opening (p : Part) (body : List (Nat × Text)) : Nat :=
  ((body.filter fun l => Heading.opened? (Text.trim l.2) == some p).getLast?.map (·.1)).getD 0

theorem opening_concat (p : Part) (body : List (Nat × Text)) (l : Nat × Text) :
    opening p (body ++ [l]) =
      if Heading.opened? (Text.trim l.2) = some p then l.1 else opening p body := by
  unfold opening
  rw [List.filter_append]
  by_cases h : Heading.opened? (Text.trim l.2) = some p <;> simp [h]

theorem mem_of_opening_pos {p : Part} {body : List (Nat × Text)} (h : 0 < opening p body) :
    ∃ l ∈ body, l.1 = opening p body := by
  unfold opening at h ⊢
  cases hl : (body.filter fun l => Heading.opened? (Text.trim l.2) == some p).getLast? with
  | none => simp [hl] at h
  | some l =>
    have hm := List.mem_of_getLast? hl
    exact ⟨l, (List.mem_filter.mp hm).1, rfl⟩

namespace Scan

/-- A part that is set unless it is closed. -/
theorem get_setUnless {α : Type} (parts : Parts α) (closed : Part → Bool) (f : Part → α) (p q : Part) :
    (if closed p then parts else parts.set (f p) p).get q =
      if p = q ∧ closed q = false then f q else parts.get q := by
  by_cases hq : p = q
  · subst hq
    cases hc : closed p <;> simp
  · have hne : ¬(p = q ∧ closed q = false) := fun h => hq h.1
    rw [if_neg hne]
    cases closed p
    · exact Parts.get_set_of_ne _ _ (Ne.symm hq)
    · rfl

theorem get_closePart (num : Nat) (s : Scan) (q : Part) :
    (s.closePart num).extents.get q =
      if s.part = some q ∧ (s.extents.get q).closed = false then
        { s.extents.get q with stop := max num (s.extents.get q).start, closed := true }
      else s.extents.get q := by
  unfold closePart
  cases hp : s.part with
  | none => simp
  | some p =>
    simp only [Option.some.injEq]
    exact get_setUnless s.extents (fun p => (s.extents.get p).closed)
      (fun p => { s.extents.get p with stop := max num (s.extents.get p).start, closed := true }) p q

@[simp] theorem start_closePart (num : Nat) (s : Scan) (q : Part) :
    ((s.closePart num).extents.get q).start = (s.extents.get q).start := by
  rw [get_closePart]
  split_ifs <;> rfl

@[simp] theorem content_closePart (num : Nat) (s : Scan) : (s.closePart num).content = s.content := by
  unfold closePart
  split <;> rfl

@[simp] theorem extents_keep (t : Text) (s : Scan) : (s.keep t).extents = s.extents := by
  unfold keep
  split
  · rfl
  · split_ifs <;> rfl

theorem get_content_keep (t : Text) (s : Scan) (q : Part) :
    (s.keep t).content.get q =
      if s.part = some q ∧ (s.extents.get q).closed = false then
        (s.content.get q).map (· ++ [t])
      else s.content.get q := by
  unfold keep
  cases hp : s.part with
  | none => simp
  | some p =>
    simp only [Option.some.injEq]
    exact (congrArg (Parts.get · q) (apply_ite Scan.content _ _ _)).trans
      (get_setUnless s.content (fun p => (s.extents.get p).closed) (fun p => (s.content.get p).map (· ++ [t])) p q)

theorem get_openPart (p : Part) (num : Nat) (s : Scan) (q : Part) :
    (s.openPart p num).extents.get q = if q = p then ⟨num, 0, false⟩ else s.extents.get q := by
  split_ifs with h
  · rw [h]
    exact Parts.get_set_self _ _ _
  · exact Parts.get_set_of_ne _ _ h

theorem get_content_openPart (p : Part) (num : Nat) (s : Scan) (q : Part) :
    (s.openPart p num).content.get q = if q = p then some [] else s.content.get q := by
  split_ifs with h
  · rw [h]
    exact Parts.get_set_self _ _ _
  · exact Parts.get_set_of_ne _ _ h

/-- The parts after `n` lines, of which those in `body` belong to the body. -/
structure Tracked (lines body : List (Nat × Text)) (n : Nat) (s : Scan) : Prop where
  open_iff : ∀ p, s.part = some p ↔
    p ≠ .header ∧ (s.extents.get p).found ∧ (s.extents.get p).closed = false
  start_eq : ∀ p ≠ .header, (s.extents.get p).start = opening p body
  start_le : ∀ p ≠ .header, (s.extents.get p).start ≤ n
  ordered : ∀ p ≠ .header, (s.extents.get p).closed →
    (s.extents.get p).found ∧ (s.extents.get p).start ≤ (s.extents.get p).stop ∧
      (s.extents.get p).stop ≤ n
  disjoint : ∀ p ≠ .header, ∀ q ≠ .header, p ≠ q →
    (s.extents.get p).found → (s.extents.get q).found →
    (s.extents.get p).reach n < (s.extents.get q).start ∨
      (s.extents.get q).reach n < (s.extents.get p).start
  content_eq : ∀ p, s.content.get p =
    if p ≠ .header ∧ (s.extents.get p).found then
      some (Text.visibleBetween (s.extents.get p).start ((s.extents.get p).reach n) lines)
    else none

theorem tracked_initial : Tracked [] [] 0 initial := by
  have hget : ∀ p, initial.extents.get p = Extent.none := by
    intro p
    cases p <;> rfl
  have hcontent : ∀ p, initial.content.get p = none := by
    intro p
    cases p <;> rfl
  refine ⟨?_, ?_, ?_, ?_, ?_, ?_⟩
  · intro p
    rw [hget]
    simp [Extent.none, Extent.found, initial]
  · intro p _
    simp [hget, Extent.none, opening]
  · intro p _
    simp [hget, Extent.none]
  · intro p _ hc
    simp [hget, Extent.none] at hc
  · intro p _ q _ _ hp
    simp [hget, Extent.none, Extent.found] at hp
  · intro p
    simp [hget, hcontent, Extent.none, Extent.found]

section Steps

variable {lines body body' : List (Nat × Text)} {n : Nat} {line : Text} {s s' : Scan}

/-- With subsections left out of account, scans with the same parts are tracked alike. -/
theorem Tracked.with_subsection (h : Tracked lines body n s) (k : Option ReferenceKind) :
    Tracked lines body n { s with subsection := k } :=
  ⟨h.open_iff, h.start_eq, h.start_le, h.ordered, h.disjoint, h.content_eq⟩

theorem Tracked.reach_closePart (h : Tracked lines body n s) {p : Part} (hp : p ≠ .header) :
    ((s.closePart n).extents.get p).reach n = (s.extents.get p).reach n := by
  rw [get_closePart]
  split_ifs with hc
  · simp [Extent.reach, hc.2, h.start_le p hp]
  · rfl

/-- The open part is closed at the last line. -/
theorem Tracked.closePart (h : Tracked lines body n s) : Tracked lines body n (s.closePart n) := by
  have hfound : ∀ p, ((s.closePart n).extents.get p).found = (s.extents.get p).found := by
    intro p
    simp [Extent.found, start_closePart]
  refine ⟨?_, ?_, ?_, ?_, ?_, ?_⟩
  · intro p
    rw [part_closePart]
    constructor
    · intro hp
      exact absurd hp (by simp)
    · rintro ⟨hp, hf, hc⟩
      rw [hfound] at hf
      rw [get_closePart] at hc
      split_ifs at hc with ho
      exact absurd ⟨(h.open_iff p).mpr ⟨hp, hf, hc⟩, hc⟩ ho
  · intro p hp
    rw [start_closePart]
    exact h.start_eq p hp
  · intro p hp
    rw [start_closePart]
    exact h.start_le p hp
  · intro p hp hc
    rw [hfound, start_closePart]
    rw [get_closePart] at hc ⊢
    split_ifs at hc ⊢ with ho
    · have hle := h.start_le p hp
      exact ⟨((h.open_iff p).mp ho.1).2.1, Nat.le_max_right _ _, by simp [hle]⟩
    · exact h.ordered p hp hc
  · intro p hp q hq hne hfp hfq
    rw [hfound] at hfp hfq
    rw [h.reach_closePart hp, h.reach_closePart hq, start_closePart, start_closePart]
    exact h.disjoint p hp q hq hne hfp hfq
  · intro p
    rw [content_closePart, hfound, start_closePart, h.content_eq p]
    by_cases hp : p = .header
    · simp [hp]
    · rw [h.reach_closePart hp]

/-- A part reaches the next line only if it is in hand. -/
theorem Tracked.content_advance (h : Tracked lines body n s) (hb : Text.Below n lines) (p : Part) :
    (if s.part = some p then
        (s.content.get p).map (· ++ if Text.isVisible line then [Text.trim line] else [])
      else s.content.get p) =
      if p ≠ .header ∧ (s.extents.get p).found then
        some (Text.visibleBetween (s.extents.get p).start ((s.extents.get p).reach (n + 1)) (lines ++ [(n + 1, line)]))
      else none := by
  rw [h.content_eq p]
  by_cases hp : p ≠ .header ∧ (s.extents.get p).found
  · obtain ⟨hne, hf⟩ := hp
    by_cases hc : (s.extents.get p).closed = true
    · have ho : s.part ≠ some p := by
        intro ho
        simp [((h.open_iff p).mp ho).2.2] at hc
      obtain ⟨-, -, hn⟩ := h.ordered p hne hc
      simp [hne, hf, ho, Extent.reach, hc, Text.visibleBetween_concat_of_le hn]
    · rw [Bool.not_eq_true] at hc
      have ho : s.part = some p := (h.open_iff p).mpr ⟨hne, hf, hc⟩
      simp [hne, hf, ho, Extent.reach, hc, Text.visibleBetween_concat hb (h.start_le p hne)]
  · simp [hp]

/-- A line is added to the part in hand, if it can be seen and there is one. -/
theorem Tracked.advance (h : Tracked lines body n s) (hb : Text.Below n lines)
    (hpart : s'.part = s.part) (hext : ∀ p ≠ .header, s'.extents.get p = s.extents.get p)
    (hcontent : ∀ p, s'.content.get p =
      if s.part = some p then
        (s.content.get p).map (· ++ if Text.isVisible line then [Text.trim line] else [])
      else s.content.get p)
    (hbody : ∀ p, opening p body' = opening p body) :
    Tracked (lines ++ [(n + 1, line)]) body' (n + 1) s' := by
  refine ⟨?_, ?_, ?_, ?_, ?_, ?_⟩
  · intro p
    rw [hpart, h.open_iff p]
    by_cases hp : p = .header
    · simp [hp]
    · rw [hext p hp]
  · intro p hp
    rw [hext p hp, hbody p]
    exact h.start_eq p hp
  · intro p hp
    rw [hext p hp]
    exact Nat.le_succ_of_le (h.start_le p hp)
  · intro p hp hc
    rw [hext p hp] at hc ⊢
    obtain ⟨hf, hs, hn⟩ := h.ordered p hp hc
    exact ⟨hf, hs, Nat.le_succ_of_le hn⟩
  · intro p hp q hq hne hfp hfq
    rw [hext p hp] at hfp
    rw [hext q hq] at hfq
    rw [hext p hp, hext q hq]
    have hd := h.disjoint p hp q hq hne hfp hfq
    have hlp := h.start_le p hp
    have hlq := h.start_le q hq
    unfold Extent.reach at hd ⊢
    split_ifs at hd ⊢ <;> omega
  · intro p
    rw [hcontent p, h.content_advance hb p]
    by_cases hp : p = .header
    · simp [hp]
    · rw [hext p hp]

/-- When no part is open, all that were found are closed. -/
theorem Tracked.closed_of_found (h : Tracked lines body n s) (hnone : s.part = none) {p : Part} (hp : p ≠ .header)
    (hf : (s.extents.get p).found) : (s.extents.get p).closed := by
  rw [← Bool.not_eq_false]
  intro hc
  have ho := (h.open_iff p).mpr ⟨hp, hf, hc⟩
  simp [hnone] at ho

/-- The part that a heading opens is empty, and the others are as they were. -/
theorem Tracked.content_openPart (h : Tracked lines body n s) (hb : Text.Below n lines) (hnone : s.part = none)
    {p : Part} (hp : p ≠ .header) (q : Part) :
    (s.openPart p (n + 1)).content.get q =
      if q ≠ .header ∧ ((s.openPart p (n + 1)).extents.get q).found then
        some (Text.visibleBetween ((s.openPart p (n + 1)).extents.get q).start
          (((s.openPart p (n + 1)).extents.get q).reach (n + 1)) (lines ++ [(n + 1, line)]))
      else none := by
  rw [get_openPart, get_content_openPart]
  by_cases hqp : q = p
  · have hnil : Text.visibleBetween (n + 1) (n + 1) (lines ++ [(n + 1, line)]) = [] :=
      Text.visibleBetween_of_le (hb.concat line) (Nat.le_refl _)
    simp [hqp, hp, Extent.found, Extent.reach, hnil]
  · rw [if_neg hqp, if_neg hqp, h.content_eq q]
    by_cases hf : q ≠ .header ∧ (s.extents.get q).found
    · have hc := h.closed_of_found hnone hf.1 hf.2
      obtain ⟨-, -, hn⟩ := h.ordered q hf.1 hc
      rw [if_pos hf, if_pos hf]
      simp [Extent.reach, hc, Text.visibleBetween_concat_of_le hn]
    · rw [if_neg hf, if_neg hf]

/-- A heading opens a part on the next line, when none is open. -/
theorem Tracked.openPart (h : Tracked lines body n s) (hb : Text.Below n lines) (hnone : s.part = none)
    {p : Part} (ho : Heading.opened? (Text.trim line) = some p) :
    Tracked (lines ++ [(n + 1, line)]) (body ++ [(n + 1, line)]) (n + 1) (s.openPart p (n + 1)) := by
  have hp : p ≠ .header := by
    rintro rfl
    exact Heading.opened?_ne_header _ ho
  have hclosed : ∀ q ≠ .header, (s.extents.get q).found → (s.extents.get q).closed :=
    fun _ => h.closed_of_found hnone
  refine ⟨?_, ?_, ?_, ?_, ?_, h.content_openPart hb hnone hp⟩
  · intro q
    rw [get_openPart]
    change some p = some q ↔ _
    split_ifs with hqp
    · subst hqp
      simp [hp, Extent.found]
    · constructor
      · intro he
        exact absurd (Option.some.inj he).symm hqp
      · rintro ⟨hq, hf, hc⟩
        simp [hclosed q hq hf] at hc
  · intro q hq
    rw [get_openPart, opening_concat, ho]
    by_cases hqp : q = p
    · simp [hqp]
    · simp [hqp, Ne.symm hqp, h.start_eq q hq]
  · intro q hq
    rw [get_openPart]
    split_ifs
    · exact Nat.le_refl _
    · exact Nat.le_succ_of_le (h.start_le q hq)
  · intro q hq hc
    rw [get_openPart] at hc ⊢
    split_ifs at hc ⊢
    obtain ⟨hf, hs, hn⟩ := h.ordered q hq hc
    exact ⟨hf, hs, Nat.le_succ_of_le hn⟩
  · intro q hq r hr hne hfq hfr
    rw [get_openPart] at hfq hfr
    rw [get_openPart, get_openPart]
    split_ifs at hfq hfr ⊢ with hqp hrp hrp
    · exact absurd (hqp.trans hrp.symm) hne
    · right
      obtain ⟨-, -, hn⟩ := h.ordered r hr (hclosed r hr hfr)
      simpa [Extent.reach, hclosed r hr hfr] using Nat.lt_succ_of_le hn
    · left
      obtain ⟨-, -, hn⟩ := h.ordered q hq (hclosed q hq hfq)
      simpa [Extent.reach, hclosed q hq hfq] using Nat.lt_succ_of_le hn
    · have hd := h.disjoint q hq r hr hne hfq hfr
      simpa [Extent.reach, hclosed q hq hfq, hclosed r hr hfr] using hd

theorem Tracked.leave (h : Tracked lines body n s) (line stripped : Text) :
    Tracked lines body n (s.leave (n + 1) line stripped) := by
  unfold Scan.leave
  split_ifs
  · exact h.closePart
  · exact h

theorem Tracked.readBody (h : Tracked lines body n s) (hb : Text.Below n lines)
    (hl : Text.isVisible line) :
    Tracked (lines ++ [(n + 1, line)]) (body ++ [(n + 1, line)]) (n + 1)
      (s.readBody (n + 1) line (Text.trim line)) := by
  have hkeeps : Heading.opened? (Text.trim line) = none →
      ∀ p, opening p (body ++ [(n + 1, line)]) = opening p body := by
    intro ho p
    simp [opening_concat, ho]
  by_cases hd : Heading.divides (Text.trim line) = true
  · rw [readBody_of_divides hd]
    apply Tracked.with_subsection
    rw [Nat.add_sub_cancel]
    cases ho : Heading.opened? (Text.trim line) with
    | none =>
      refine h.closePart.advance hb rfl (fun _ _ => rfl) ?_ (hkeeps ho)
      intro p
      simp [part_closePart]
    | some p => exact h.closePart.openPart hb (part_closePart n s) ho
  · rw [Bool.not_eq_true] at hd
    have ho : Heading.opened? (Text.trim line) = none := by
      rw [Option.eq_none_iff_forall_ne_some]
      intro p hp
      simp [Heading.divides_of_opened? hp] at hd
    rw [readBody_of_not_divides hd]
    apply Tracked.with_subsection
    have hleave := h.leave line (Text.trim line)
    refine hleave.advance hb (part_keep _) (fun _ _ => ?_) ?_ (hkeeps ho)
    · rw [extents_keep]
    · intro p
      rw [get_content_keep]
      by_cases hp : (s.leave (n + 1) line (Text.trim line)).part = some p
      · have hc := ((hleave.open_iff p).mp hp).2.2
        simp [hp, hc, hl]
      · simp [hp]

theorem Tracked.note (h : Tracked lines body n s) (num : Nat) (line stripped next : Text) :
    Tracked lines body n (s.note num line stripped next) :=
  ⟨h.open_iff, h.start_eq, h.start_le, h.ordered, h.disjoint, h.content_eq⟩

/-- In front of the body no part is in hand. -/
theorem Tracked.part_eq_none (h : Tracked lines [] n s) : s.part = none := by
  rw [Option.eq_none_iff_forall_ne_some]
  intro p hp
  obtain ⟨hne, hf, -⟩ := (h.open_iff p).mp hp
  have hz := h.start_eq p hne
  simp [Extent.found, hz, opening] at hf

/-- Lines outside the body are read while no part is open, or cannot be seen. -/
theorem Tracked.rest (h : Tracked lines body n s) (hb : Text.Below n lines) (hsame : SameParts s s')
    (hnone : Text.isVisible line → body = []) :
    Tracked (lines ++ [(n + 1, line)]) body (n + 1) s' := by
  refine h.advance hb hsame.part hsame.extents ?_ (fun _ => rfl)
  intro p
  rw [hsame.content]
  split_ifs with hp hl
  · have hs := hnone hl
    subst hs
    simp [h.part_eq_none] at hp
  · simp
  · rfl

theorem Tracked.readLine (h : Tracked lines (s.bodyLines lines) n s) (hb : Text.Below n lines)
    (hf : Fronted n s) (line next : Text) :
    Tracked (lines ++ [(n + 1, line)])
      ((s.readLine (n + 1) line next).bodyLines (lines ++ [(n + 1, line)])) (n + 1)
      (s.readLine (n + 1) line next) := by
  cases moves_readLine hf hb line next with
  | body hl hs hlines =>
    rw [hlines, hs]
    exact (h.note (n + 1) line (Text.trim line) next).readBody hb hl
  | rest hsame hlines hnone =>
    rw [hlines]
    exact h.rest hb hsame hnone

end Steps

theorem Reached.tracked {ls : List Text} {s : Scan} (h : Reached ls s) :
    Tracked (Text.numberFrom 1 ls) (s.bodyLines (Text.numberFrom 1 ls)) ls.length s := by
  induction h with
  | start => exact tracked_initial
  | @line ls s h line next ih =>
    rw [Text.numberFrom_concat, List.length_append]
    exact ih.readLine (Text.below_numberFrom ls) h.fronted line next

/-- What holds of the parts while a text is read.  The front page has an extent too, but is none of the
parts that a heading opens. -/
structure Consistent (s : Scan) : Prop where
  open_iff : ∀ p ≠ .header, (s.extents.get p).found ∧ (s.extents.get p).closed = false ↔ s.part = some p
  part_ne_header : s.part ≠ some .header
  ordered : ∀ p, (s.extents.get p).closed →
    1 ≤ (s.extents.get p).start ∧ (s.extents.get p).start ≤ (s.extents.get p).stop
  content_iff : ∀ p, (s.content.get p).isSome ↔ p ≠ .header ∧ (s.extents.get p).found

theorem Reached.consistent {ls : List Text} {s : Scan} (h : Reached ls s) : Consistent s := by
  have ht := h.tracked
  have hf := h.fronted
  refine ⟨?_, hf.part_ne_header, ?_, ?_⟩
  · intro p hp
    rw [ht.open_iff p]
    simp [hp]
  · intro p hc
    by_cases hp : p = .header
    · subst hp
      have hfound := hf.found_of_closed hc
      exact ⟨of_decide_eq_true hfound, hf.start_le_stop⟩
    · obtain ⟨hfound, hle, -⟩ := ht.ordered p hp hc
      exact ⟨of_decide_eq_true hfound, hle⟩
  · intro p
    rw [ht.content_eq p]
    split_ifs with hp
    · simpa using hp
    · simpa using hp

end Scan

/-- The part in hand has content to add to. -/
theorem Scan.Consistent.isSome_content {s : Scan} (h : s.Consistent) {p : Part} (hp : s.part = some p) :
    (s.content.get p).isSome := by
  have hne : p ≠ .header := by
    rintro rfl
    exact h.part_ne_header hp
  exact (h.content_iff p).mpr ⟨hne, ((h.open_iff p hne).mpr hp).1⟩

/-- What holds of the parts of a document once it is read. -/
structure Document.Settled (d : Document) : Prop where
  closed : ∀ p ≠ .header, (d.scan.extents.get p).found → (d.scan.extents.get p).closed
  disjoint : ∀ p ≠ .header, ∀ q ≠ .header, p ≠ q →
    (d.scan.extents.get p).found → (d.scan.extents.get q).found →
    (d.scan.extents.get p).stop < (d.scan.extents.get q).start ∨
      (d.scan.extents.get q).stop < (d.scan.extents.get p).start
  bounds : ∀ p ≠ .header, (d.scan.extents.get p).found →
    d.scan.titleLine < (d.scan.extents.get p).start ∧
      (d.scan.extents.get p).start ≤ (d.scan.extents.get p).stop ∧
      (d.scan.extents.get p).stop ≤ d.lines.length
  start_eq : ∀ p ≠ .header, (d.scan.extents.get p).start = opening p (d.scan.bodyLines d.lines)
  content_eq : ∀ p, d.scan.content.get p =
    if p ≠ .header ∧ (d.scan.extents.get p).found then
      some (Text.visibleBetween (d.scan.extents.get p).start (d.scan.extents.get p).stop d.lines)
    else none

namespace Document

theorem tracked_ofText (fileName : Option Text) (t : Text) :
    Scan.Tracked (ofText fileName t).lines
      ((ofText fileName t).scan.bodyLines (ofText fileName t).lines) (ofText fileName t).lines.length
      (ofText fileName t).scan := by
  have h := (Scan.Reached.readLines (Text.lines (prepare t))).tracked.closePart
  change Scan.Tracked (Text.numberFrom 1 (Text.lines (prepare t)))
    (Scan.bodyLines ((Scan.initial.readLines (Text.numberFrom 1 (Text.lines (prepare t)))).closePart
      (Text.numberFrom 1 (Text.lines (prepare t))).length) _)
    (Text.numberFrom 1 (Text.lines (prepare t))).length
    ((Scan.initial.readLines (Text.numberFrom 1 (Text.lines (prepare t)))).closePart
      (Text.numberFrom 1 (Text.lines (prepare t))).length)
  rw [Text.length_numberFrom, Scan.bodyLines_closePart]
  exact h

theorem settled_ofText (fileName : Option Text) (t : Text) : (ofText fileName t).Settled := by
  have h := tracked_ofText fileName t
  have hnone : (ofText fileName t).scan.part = none := Scan.part_closePart _ _
  have hclosed : ∀ p ≠ .header, ((ofText fileName t).scan.extents.get p).found →
      ((ofText fileName t).scan.extents.get p).closed := by
    intro p hp hf
    cases hc : ((ofText fileName t).scan.extents.get p).closed with
    | true => rfl
    | false =>
      have ho := (h.open_iff p).mpr ⟨hp, hf, hc⟩
      simp [hnone] at ho
  have hreach : ∀ p ≠ .header, ((ofText fileName t).scan.extents.get p).found →
      ((ofText fileName t).scan.extents.get p).reach (ofText fileName t).lines.length =
        ((ofText fileName t).scan.extents.get p).stop := by
    intro p hp hf
    exact if_pos (hclosed p hp hf)
  refine ⟨hclosed, ?_, ?_, h.start_eq, ?_⟩
  · intro p hp q hq hne hfp hfq
    rw [← hreach p hp hfp, ← hreach q hq hfq]
    exact h.disjoint p hp q hq hne hfp hfq
  · intro p hp hf
    obtain ⟨-, hle, hn⟩ := h.ordered p hp (hclosed p hp hf)
    have hpos := of_decide_eq_true hf
    rw [h.start_eq p hp] at hpos
    obtain ⟨l, hl, hstart⟩ := mem_of_opening_pos hpos
    have htitle := (Scan.mem_bodyLines.mp hl).2.2.1
    rw [← h.start_eq p hp] at hstart
    exact ⟨by omega, hle, hn⟩
  · intro p
    rw [h.content_eq p]
    split_ifs with hp
    · rw [hreach p hp.1 hp.2]
    · rfl

/-- The parts of any text, while it is read and after. -/
theorem parts_ofText (fileName : Option Text) (t : Text) :
    (∀ k, (Scan.initial.afterLines k (Text.numberedLines (prepare t))).Consistent) ∧
      (ofText fileName t).Settled := by
  refine ⟨fun k => ?_, settled_ofText fileName t⟩
  exact (Scan.Reached.start.afterLines (Text.lines (prepare t)) k).consistent

end Document
end DraftLint.Plain
