import DraftLint.Plain.Document
import DraftLint.Proofs.Plain.Body
import DraftLint.Proofs.Text.Lines

/-!
# Runs of a scan

A scan reads the lines of a text in order.  This module says once what one line can do, and singles out
the lines of the body: visible lines after the title and the name of the document.  A line either belongs
to the body or leaves the parts alone.
-/

namespace DraftLint.Plain.Scan

/-- The scan after the first `k` of some lines, each read with a view to the next. -/
def afterLines (s : Scan) : Nat → List (Nat × Text) → Scan
  | 0, _ => s
  | _ + 1, [] => s
  | k + 1, (num, line) :: rest =>
    (s.readLine num line ((rest.head?.map (·.2)).getD [])).afterLines k rest

theorem afterLines_length (s : Scan) (lines : List (Nat × Text)) :
    s.afterLines lines.length lines = s.readLines lines := by
  induction lines generalizing s with
  | nil => rfl
  | cons l rest ih => exact ih _

/-- The scans that the lines of a text lead to, read from the first one on, whatever comes after the
last. -/
inductive Reached : List Text → Scan → Prop where
  | start : Reached [] initial
  | line {ls : List Text} {s : Scan} (h : Reached ls s) (line next : Text) :
      Reached (ls ++ [line]) (s.readLine (ls.length + 1) line next)

theorem Reached.afterLines {ls : List Text} {s : Scan} (h : Reached ls s) (rest : List Text)
    (k : Nat) :
    Reached (ls ++ rest.take k) (s.afterLines k (Text.numberFrom (ls.length + 1) rest)) := by
  induction k generalizing ls rest s with
  | zero => simpa [Scan.afterLines] using h
  | succ k ih =>
    cases rest with
    | nil => simpa [Scan.afterLines, Text.numberFrom] using h
    | cons l rest =>
      have hl := ih (h.line l (((Text.numberFrom (ls.length + 2) rest).head?.map (·.2)).getD [])) rest
      simpa [Scan.afterLines, Text.numberFrom] using hl

theorem Reached.readLines (ls : List Text) :
    Reached ls (initial.readLines (Text.numberFrom 1 ls)) := by
  have h := Reached.start.afterLines ls ls.length
  rw [← afterLines_length, Text.length_numberFrom]
  simpa using h

section Place

variable {num : Nat} {line stripped next : Text} {s : Scan}

theorem place_of_first (hf : s.extents.header.found = false) :
    (s.note num line stripped next).place num line stripped =
      (s.note num line stripped next).readFirst num stripped := by
  simp [place, note, hf]

theorem place_of_title (hf : s.extents.header.found) (hc : s.extents.header.closed = false)
    (hn : s.extents.header.stop + 1 < num) :
    (s.note num line stripped next).place num line stripped =
      { (s.note num line stripped next).setHeaderExtent { s.extents.header with closed := true } with
        title := some stripped, titleLine := num } := by
  simp [place, note, hf, hc, hn]

theorem place_of_front (hf : s.extents.header.found) (hc : s.extents.header.closed = false)
    (hn : num ≤ s.extents.header.stop + 1) :
    (s.note num line stripped next).place num line stripped =
      { (s.note num line stripped next).setHeaderExtent { s.extents.header with stop := num } with
        page := s.page.readLine num line stripped } := by
  simp [place, note, hf, hc, Nat.not_lt.mpr hn, setHeaderExtent]

theorem place_of_slug (hf : s.extents.header.found) (hc : s.extents.header.closed)
    (hs : s.title.isSome ∧ num = s.titleLine + 1) :
    (s.note num line stripped next).place num line stripped =
      { s.note num line stripped next with slug := some stripped, slugLine := num } := by
  simp [place, note, hf, hc, hs.1, hs.2]

theorem place_of_body (hf : s.extents.header.found) (hc : s.extents.header.closed)
    (hs : ¬(s.title.isSome ∧ num = s.titleLine + 1)) :
    (s.note num line stripped next).place num line stripped =
      (s.note num line stripped next).readBody num line stripped := by
  simp [place, note, hf, hc, hs]

end Place

/-- What reading a line can come to. -/
inductive Reads (num : Nat) (line next : Text) (s : Scan) : Scan → Prop where
  | hidden (hl : Text.isVisible line = false) (count : Nat) :
      Reads num line next s { s with pageCount := count }
  | first (hl : Text.isVisible line) (hf : s.extents.header.found = false) :
      Reads num line next s ((s.note num line (Text.trim line) next).readFirst num (Text.trim line))
  | title (hl : Text.isVisible line) (hf : s.extents.header.found)
      (hc : s.extents.header.closed = false) (hn : s.extents.header.stop + 1 < num) :
      Reads num line next s
        { (s.note num line (Text.trim line) next).setHeaderExtent
            { s.extents.header with closed := true } with
          title := some (Text.trim line), titleLine := num }
  | front (hl : Text.isVisible line) (hf : s.extents.header.found)
      (hc : s.extents.header.closed = false) (hn : num ≤ s.extents.header.stop + 1) :
      Reads num line next s
        { (s.note num line (Text.trim line) next).setHeaderExtent
            { s.extents.header with stop := num } with
          page := s.page.readLine num line (Text.trim line) }
  | slug (hl : Text.isVisible line) (hc : s.extents.header.closed)
      (ht : s.title.isSome) (hn : num = s.titleLine + 1) :
      Reads num line next s
        { s.note num line (Text.trim line) next with slug := some (Text.trim line), slugLine := num }
  | body (hl : Text.isVisible line) (hc : s.extents.header.closed)
      (hn : ¬(s.title.isSome ∧ num = s.titleLine + 1)) :
      Reads num line next s
        ((s.note num line (Text.trim line) next).readBody num line (Text.trim line))

theorem reads_readLine (num : Nat) (line next : Text) (s : Scan) :
    Reads num line next s (s.readLine num line next) := by
  simp only [readLine]
  by_cases hp : line.any (· == '\x0c') = true
  · rw [if_pos hp]
    exact .hidden (by simp [Text.isVisible, hp]) _
  rw [if_neg hp]
  by_cases hb : (Text.trim line).isEmpty = true
  · rw [if_pos hb]
    exact .hidden (by simp [Text.isVisible, hb]) s.pageCount
  rw [if_neg hb]
  have hl : Text.isVisible line = true := by
    simp only [Text.isVisible, Bool.and_eq_true, Bool.not_eq_true', Bool.eq_false_iff]
    exact ⟨hp, hb⟩
  by_cases hf : s.extents.header.found = true
  · by_cases hc : s.extents.header.closed = true
    · by_cases hs : s.title.isSome ∧ num = s.titleLine + 1
      · rw [place_of_slug hf hc hs]
        exact .slug hl hc hs.1 hs.2
      · rw [place_of_body hf hc hs]
        exact .body hl hc hs
    · rw [Bool.not_eq_true] at hc
      by_cases hn : s.extents.header.stop + 1 < num
      · rw [place_of_title hf hc hn]
        exact .title hl hf hc hn
      · rw [place_of_front hf hc (by omega)]
        exact .front hl hf hc (by omega)
  · rw [Bool.not_eq_true] at hf
    rw [place_of_first hf]
    exact .first hl hf

/-- The front page comes to an end with the title, before any part. -/
structure Fronted (n : Nat) (s : Scan) : Prop where
  closed_eq : s.extents.header.closed = s.title.isSome
  found_of_closed : s.extents.header.closed = true → s.extents.header.found = true
  start_le_stop : s.extents.header.start ≤ s.extents.header.stop
  stop_le : s.extents.header.stop ≤ n
  titleLine_le : s.titleLine ≤ n
  part_ne_header : s.part ≠ some .header

theorem fronted_initial : Fronted 0 initial where
  closed_eq := rfl
  found_of_closed := by simp [initial, Parts.const, Extent.none]
  start_le_stop := Nat.le_refl 0
  stop_le := Nat.le_refl 0
  titleLine_le := Nat.le_refl 0
  part_ne_header := by simp [initial]

theorem Fronted.untitled {n : Nat} {s : Scan} (h : Fronted n s) (hf : s.extents.header.found = false) :
    s.title.isSome = false := by
  rw [← h.closed_eq, Bool.eq_false_iff]
  intro hc
  rw [h.found_of_closed hc] at hf
  cases hf

theorem Fronted.note {n : Nat} {s : Scan} (h : Fronted n s) (num : Nat) (line stripped next : Text) :
    Fronted n (s.note num line stripped next) :=
  ⟨h.closed_eq, h.found_of_closed, h.start_le_stop, h.stop_le, h.titleLine_le, h.part_ne_header⟩

theorem Fronted.readBody {n : Nat} {s : Scan} (h : Fronted n s) (num : Nat) (line stripped : Text) :
    Fronted n (s.readBody num line stripped) := by
  obtain ⟨hclosed, hfound, hstart, hstop, htitle, hpart⟩ := h
  refine ⟨?_, ?_, ?_, ?_, ?_, ?_⟩
  · rw [header_readBody hpart, title_readBody hpart]
    exact hclosed
  · rw [header_readBody hpart]
    exact hfound
  · rw [header_readBody hpart]
    exact hstart
  · rw [header_readBody hpart]
    exact hstop
  · rw [titleLine_readBody hpart]
    exact htitle
  · rw [part_readBody]
    split_ifs
    · exact Heading.opened?_ne_header _
    · simp
    · exact hpart

theorem Fronted.succ {n : Nat} {s : Scan} (h : Fronted n s) : Fronted (n + 1) s :=
  ⟨h.closed_eq, h.found_of_closed, h.start_le_stop, Nat.le_succ_of_le h.stop_le,
    Nat.le_succ_of_le h.titleLine_le, h.part_ne_header⟩

theorem Fronted.readLine {n : Nat} {s : Scan} (h : Fronted n s) (line next : Text) :
    Fronted (n + 1) (s.readLine (n + 1) line next) := by
  obtain ⟨hclosed, hfound, hstart, hstop, htitle, hpart⟩ := h.succ
  have hr := reads_readLine (n + 1) line next s
  generalize s.readLine (n + 1) line next = s' at hr ⊢
  cases hr with
  | hidden hl count => exact ⟨hclosed, hfound, hstart, hstop, htitle, hpart⟩
  | first hl hf =>
    exact ⟨hclosed, fun _ => by simp [Scan.readFirst, setHeaderExtent, Parts.set, Extent.found],
      Nat.le_refl _, Nat.le_refl _, htitle, hpart⟩
  | title hl hf hc hn => exact ⟨rfl, fun _ => hf, hstart, hstop, Nat.le_refl _, hpart⟩
  | front hl hf hc hn =>
    exact ⟨hclosed, fun _ => hf, Nat.le_trans hstart hstop, Nat.le_refl _, htitle, hpart⟩
  | slug hl hc ht hn => exact ⟨hclosed, hfound, hstart, hstop, htitle, hpart⟩
  | body hl hc hn => exact (h.succ.note (n + 1) line (Text.trim line) next).readBody _ _ _

theorem Reached.fronted {ls : List Text} {s : Scan} (h : Reached ls s) : Fronted ls.length s := by
  induction h with
  | start => exact fronted_initial
  | line h line next ih =>
    rw [List.length_append]
    exact ih.readLine line next

/-- What is so at the start, and stays so from one line to the next, is so of every scan and of the
numbered lines that lead to it. -/
theorem Reached.overLines {motive : List (Nat × Text) → Scan → Prop} {ls : List Text} {s : Scan}
    (h : Reached ls s) (start : motive [] initial)
    (line : ∀ {ls : List Text} {s : Scan}, Reached ls s → Text.Below ls.length (Text.numberFrom 1 ls) →
      motive (Text.numberFrom 1 ls) s → ∀ line next : Text,
        motive (Text.numberFrom 1 ls ++ [(ls.length + 1, line)]) (s.readLine (ls.length + 1) line next)) :
    motive (Text.numberFrom 1 ls) s := by
  induction h with
  | start => exact start
  | @line ls s h text next ih =>
    rw [Text.numberFrom_concat]
    exact line h (Text.below_numberFrom ls) ih text next

/-- The lines of the body: the visible ones after the title and the name of the document. -/
def bodyLines (s : Scan) (lines : List (Nat × Text)) : List (Nat × Text) :=
  lines.filter fun l => s.title.isSome && (s.titleLine + 1 < l.1 && Text.isVisible l.2)

/-- Two scans have the same parts, the front page apart. -/
structure SameParts (s s' : Scan) : Prop where
  part : s'.part = s.part
  subsection : s'.subsection = s.subsection
  content : s'.content = s.content
  extents : ∀ p ≠ .header, s'.extents.get p = s.extents.get p

theorem get_setHeaderExtent {p : Part} (h : p ≠ .header) (e : Extent) (s : Scan) :
    (s.setHeaderExtent e).extents.get p = s.extents.get p :=
  Parts.get_set_of_ne _ _ h

section Lines

variable {n : Nat} {s : Scan} {lines : List (Nat × Text)}

theorem mem_bodyLines {l : Nat × Text} :
    l ∈ s.bodyLines lines ↔
      l ∈ lines ∧ s.title.isSome ∧ s.titleLine + 1 < l.1 ∧ Text.isVisible l.2 := by
  simp [bodyLines]

theorem bodyLines_of_untitled (h : s.title.isSome = false) : s.bodyLines lines = [] := by
  simp [bodyLines, h]

theorem bodyLines_of_le (hb : Text.Below n lines) (h : n ≤ s.titleLine + 1) :
    s.bodyLines lines = [] := by
  rw [List.eq_nil_iff_forall_not_mem]
  intro l hl
  obtain ⟨hm, -, hn, -⟩ := mem_bodyLines.mp hl
  have hle := hb l hm
  omega

theorem bodyLines_append (lines' : List (Nat × Text)) :
    s.bodyLines (lines ++ lines') = s.bodyLines lines ++ s.bodyLines lines' := by
  simp [bodyLines]

@[simp] theorem bodyLines_note (num : Nat) (line stripped next : Text) :
    (s.note num line stripped next).bodyLines lines = s.bodyLines lines :=
  rfl

theorem bodyLines_readBody (h : s.part ≠ some .header) (num : Nat) (line stripped : Text) :
    (s.readBody num line stripped).bodyLines lines = s.bodyLines lines := by
  simp only [bodyLines, title_readBody h, titleLine_readBody h]

@[simp] theorem bodyLines_closePart (num : Nat) :
    (s.closePart num).bodyLines lines = s.bodyLines lines := by
  unfold closePart
  split <;> rfl

/-- What a line does to the parts: it is read as a line of the body, or it leaves them alone. -/
inductive Moves (lines : List (Nat × Text)) (n : Nat) (line next : Text) (s s' : Scan) : Prop where
  | body (hl : Text.isVisible line)
      (hs : s' = (s.note (n + 1) line (Text.trim line) next).readBody (n + 1) line (Text.trim line))
      (hlines : s'.bodyLines (lines ++ [(n + 1, line)]) = s.bodyLines lines ++ [(n + 1, line)])
  | rest (hsame : SameParts s s') (hlines : s'.bodyLines (lines ++ [(n + 1, line)]) = s.bodyLines lines)
      (hnone : Text.isVisible line → s.bodyLines lines = [])

theorem moves_readLine (hf : Fronted n s) (hb : Text.Below n lines) (line next : Text) :
    Moves lines n line next s (s.readLine (n + 1) line next) := by
  have hr := reads_readLine (n + 1) line next s
  have hb' := hb.concat line
  generalize s.readLine (n + 1) line next = s' at hr ⊢
  cases hr with
  | hidden hl count =>
    refine .rest ⟨rfl, rfl, rfl, fun _ _ => rfl⟩ ?_ (by simp [hl])
    simp [bodyLines, hl]
  | first hl hfound =>
    have ht : s.title.isSome = false := hf.untitled hfound
    refine .rest ⟨rfl, rfl, rfl, fun p hp => get_setHeaderExtent hp _ _⟩ ?_ ?_
    · rw [bodyLines_of_untitled ht]
      exact bodyLines_of_untitled ht
    · exact fun _ => bodyLines_of_untitled ht
  | title hl hfound hc hn =>
    have ht : s.title.isSome = false := hf.closed_eq ▸ hc
    refine .rest ⟨rfl, rfl, rfl, fun p hp => get_setHeaderExtent hp _ _⟩ ?_ ?_
    · rw [bodyLines_of_untitled ht]
      exact bodyLines_of_le hb' (Nat.le_succ _)
    · exact fun _ => bodyLines_of_untitled ht
  | front hl hfound hc hn =>
    have ht : s.title.isSome = false := hf.closed_eq ▸ hc
    refine .rest ⟨rfl, rfl, rfl, fun p hp => get_setHeaderExtent hp _ _⟩ ?_ ?_
    · rw [bodyLines_of_untitled ht]
      exact bodyLines_of_untitled ht
    · exact fun _ => bodyLines_of_untitled ht
  | slug hl hc ht hn =>
    have hle : n ≤ s.titleLine + 1 := by omega
    refine .rest ⟨rfl, rfl, rfl, fun _ _ => rfl⟩ ?_ (fun _ => bodyLines_of_le hb hle)
    rw [bodyLines_of_le hb hle]
    exact bodyLines_of_le hb' (Nat.le_of_eq hn)
  | body hl hc hn =>
    refine .body hl rfl ?_
    have ht : s.title.isSome = true := hf.closed_eq ▸ hc
    have hlt : s.titleLine + 1 < n + 1 := by
      have hle := hf.titleLine_le
      have hne : n + 1 ≠ s.titleLine + 1 := fun he => hn ⟨ht, he⟩
      omega
    rw [bodyLines_readBody (hf.note _ _ _ _).part_ne_header, bodyLines_note, bodyLines_append]
    congr 1
    simp [bodyLines, ht, hlt, hl]

end Lines

end DraftLint.Plain.Scan
