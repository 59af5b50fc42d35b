import DraftLint.Plain.FrontPage
import DraftLint.Proofs.Pattern.Preference
import DraftLint.Proofs.Text.Lines
import DraftLint.Proofs.Text.Words
import Mathlib.Data.List.Chain

/-!
# Rows of two columns

A row has a cell on the left and a cell on the right, and at least two spaces in front of the latter.  Since the
former has no two blanks in a row, the cells can be read off the line.
-/

namespace DraftLint

namespace Text

/-- Two blanks never stand side by side. -/
def SingleSpaced (t : Text) : Prop :=
  t.IsChain fun c d => isBlank c = false ∨ isBlank d = false

instance (t : Text) : Decidable (SingleSpaced t) :=
  inferInstanceAs (Decidable (t.IsChain _))

end Text

namespace Plain

/-- What stands in the columns of a line, and how far the right one is indented. -/
structure Row where
  left : Text
  padding : Nat
  right : Text

namespace Row

def line (r : Row) : Text :=
  r.left ++ (List.replicate r.padding ' ' ++ r.right)

/-- The cells can be told apart, and the line is one that can be seen. -/
structure Laid (r : Row) : Prop where
  left_trim : Text.trim r.left = r.left
  left_spaced : r.left.SingleSpaced
  right_trim : Text.trim r.right = r.right
  apart : r.right ≠ [] → 2 ≤ r.padding
  filled : r.left ≠ [] ∨ r.right ≠ []
  plain : ∀ c ∈ r.left ++ r.right, c ∉ ['\n', '\r', '\t', '\x0c']

instance (r : Row) : Decidable r.Laid :=
  decidable_of_iff (Text.trim r.left = r.left ∧ r.left.SingleSpaced ∧ Text.trim r.right = r.right ∧
      (r.right ≠ [] → 2 ≤ r.padding) ∧ (r.left ≠ [] ∨ r.right ≠ []) ∧
      ∀ c ∈ r.left ++ r.right, c ∉ ['\n', '\r', '\t', '\x0c'])
    ⟨fun ⟨left, spaced, right, apart, filled, plain⟩ => ⟨left, spaced, right, apart, filled, plain⟩,
      fun h => ⟨h.left_trim, h.left_spaced, h.right_trim, h.apart, h.filled, h.plain⟩⟩

end Row

section Columns

open Pattern

variable {α : Type} {fuel n : Nat} {t u v left right : Text} {next : Reach → Option α} {a : α} {captures : List Capture}

/-- What separates the columns. -/
def gap : Pattern :=
  .seq (.seq (.one .blank) (.one .blank)) (.many (.one .blank))

/-- The right column, which reaches to the end. -/
def rightColumn : Pattern :=
  .seq (.group 2 (.seq (.one CharSet.blank.not) (.many (.one .notNewline)))) (.anchor .lineEnd)

theorem columns_eq : Layout.columns =
    .seq (.anchor .textStart) (.seq (.group 1 (.few (.one .notNewline))) (.seq gap rightColumn)) :=
  rfl

theorem run_gap (hv : ∀ c ∈ v.head?, Text.isBlank c = false) (hn : n ≤ fuel)
    (ha : next ⟨.amid (u ++ List.replicate (n + 2) ' ') v, captures⟩ = some a) :
    gap.run fuel ⟨.amid u (List.replicate (n + 2) ' ' ++ v), captures⟩ next = some a := by
  have hspace : CharSet.blank ' ' = true := rfl
  rw [gap, run, run, List.replicate_succ, List.replicate_succ, List.cons_append, List.cons_append,
    run_one_cons hspace, run_one_cons hspace]
  refine run_many_one_all (fun d hd => ?_) hv ?_ (by rwa [List.length_replicate])
  · rwa [List.eq_of_mem_replicate hd]
  · rw [List.append_assoc, List.append_assoc]
    exact ha

/-- No gap is read where two blanks do not stand side by side. -/
theorem run_gap_eq_none (h : ∀ c d w, v = c :: d :: w → Text.isBlank c = false ∨ Text.isBlank d = false) :
    gap.run fuel ⟨.amid u v, captures⟩ next = none := by
  rw [gap, run, run]
  refine run_one_eq_none fun c w hv hc => run_one_eq_none fun d w' hw hd => ?_
  have hblank := h c d w' (by rw [hv, hw])
  rw [show Text.isBlank c = true from hc, show Text.isBlank d = true from hd] at hblank
  simp at hblank

theorem run_rightColumn {c : Char} (hc : Text.isBlank c = false) (hv : ∀ d ∈ v, CharSet.notNewline d)
    (hfuel : v.length ≤ fuel)
    (ha : next ⟨.amid (u ++ c :: v) [], ⟨2, .amid u (c :: v), .amid (u ++ c :: v) []⟩ :: captures⟩ = some a) :
    rightColumn.run fuel ⟨.amid u (c :: v), captures⟩ next = some a := by
  have hfirst : CharSet.blank.not c = true := by rw [CharSet.not, CharSet.blank, hc, Bool.not_false]
  have hjoin : u ++ [c] ++ v = u ++ c :: v := by rw [List.append_assoc, List.singleton_append]
  have hnil : v = v ++ [] := (List.append_nil v).symm
  rw [rightColumn, run, run, run, run_one_cons hfirst]
  nth_rewrite 1 [hnil]
  refine run_many_one_all hv (by simp) ?_ hfuel
  have hend : Anchor.lineEnd.holds (.amid (u ++ c :: v) []) = true := rfl
  rw [hjoin, run, if_pos hend]
  exact ha

/-- A text without two blanks in a row has one column. -/
theorem columns_eq_none (ht : t.SingleSpaced) : FrontPage.columns? t = none := by
  have hnone : Layout.columns.match? t = none := by
    refine matchAt_eq_none fun w r hread => ?_
    have hrest : t = w ++ r.cursor.rest := hread.advance.1
    rw [columns_eq] at hread
    obtain ⟨_, _, _, rfl, -, hread⟩ := hread.of_seq
    obtain ⟨_, _, _, rfl, -, hread⟩ := hread.of_seq
    obtain ⟨_, _, _, rfl, hgap, -⟩ := hread.of_seq
    obtain ⟨_, _, _, rfl, htwo, -⟩ := hgap.of_seq
    obtain ⟨_, _, _, rfl, hfirst, hsecond⟩ := htwo.of_seq
    obtain ⟨c, rfl, hc⟩ := hfirst.of_one
    obtain ⟨d, rfl, hd⟩ := hsecond.of_one
    rw [hrest] at ht
    simp only [List.append_assoc, List.singleton_append] at ht
    rw [← List.append_assoc] at ht
    have hblank := List.isChain_iff_forall_rel_of_append_cons_cons.mp ht rfl
    rw [show Text.isBlank c = true from hc, show Text.isBlank d = true from hd] at hblank
    simp at hblank
  rw [FrontPage.columns?, hnone]
  rfl

/-- No place before the end of the left column has two blanks behind it, whatever comes after the column. -/
theorem not_two_blanks (hleft : Text.trim left = left) (hspaced : left.SingleSpaced) {y z : Text}
    (hyz : left = y ++ z) (hz : z ≠ []) {c d : Char} {w : Text} (hv : z ++ v = c :: d :: w) :
    Text.isBlank c = false ∨ Text.isBlank d = false := by
  cases z with
  | nil => exact absurd rfl hz
  | cons c' z =>
    obtain rfl : c' = c := (List.cons.inj hv).1
    cases z with
    | nil => exact .inl (Text.last_of_trim_eq hleft c' (by rw [hyz, List.getLast?_concat]; rfl))
    | cons d' z =>
      obtain rfl : d' = d := (List.cons.inj (List.cons.inj hv).2).1
      exact List.isChain_iff_forall_rel_of_append_cons_cons.mp hspaced hyz

/-- The left column is read up to the first two blanks that stand side by side, since it could not end before. -/
theorem match_columns {c : Char} {rest : Text} (hleft : Text.trim left = left) (hspaced : left.SingleSpaced)
    (hc : Text.isBlank c = false) (hl : ∀ d ∈ left, CharSet.notNewline d) (hrest : ∀ d ∈ rest, CharSet.notNewline d) :
    Layout.columns.match? (left ++ (List.replicate (n + 2) ' ' ++ c :: rest)) =
      some ⟨.amid [] (left ++ (List.replicate (n + 2) ' ' ++ c :: rest)),
        .amid (left ++ List.replicate (n + 2) ' ' ++ c :: rest) [],
        [⟨2, .amid (left ++ List.replicate (n + 2) ' ') (c :: rest),
            .amid (left ++ List.replicate (n + 2) ' ' ++ c :: rest) []⟩,
          ⟨1, .amid [] (left ++ (List.replicate (n + 2) ' ' ++ c :: rest)),
            .amid left (List.replicate (n + 2) ' ' ++ c :: rest)⟩]⟩ := by
  have hlength : n + (rest.length + 1) ≤ (left ++ (List.replicate (n + 2) ' ' ++ c :: rest)).length := by
    simp only [List.length_append, List.length_replicate, List.length_cons]
    omega
  have hfirst : ∀ d ∈ (c :: rest).head?, Text.isBlank d = false := by
    intro d hd
    obtain rfl := Option.some.inj hd
    exact hc
  rw [match?, matchAt, columns_eq, run, run]
  change (Pattern.seq (.group 1 (.few (.one .notNewline))) _).run _ ⟨.amid [] _, []⟩ _ = _
  rw [run, run]
  refine run_few_one hl ?_ (fun y z hyz hz => ?_) (by rw [List.length_append]; omega)
  · exact run_gap hfirst (by omega) (run_rightColumn hc hrest (by omega) rfl)
  · rw [run]
    exact run_gap_eq_none fun d e w hv => not_two_blanks hleft hspaced hyz hz hv

/-- The columns are those before and after the first place with two blanks. -/
theorem columns_append (hleft : Text.trim left = left) (hspaced : left.SingleSpaced) (hright : Text.trim right = right)
    (hne : right ≠ []) (hn : 2 ≤ n) (hline : '\n' ∉ left ++ right) :
    FrontPage.columns? (left ++ (List.replicate n ' ' ++ right)) = some (left, right) := by
  obtain ⟨n, rfl⟩ := Nat.exists_eq_add_of_le' hn
  obtain ⟨c, rest, rfl⟩ := List.exists_cons_of_ne_nil hne
  have hnewline : ∀ d ∈ left ++ c :: rest, CharSet.notNewline d := by
    intro d hd
    exact bne_iff_ne.mpr (ne_of_mem_of_not_mem hd hline)
  obtain ⟨hl, hr⟩ := List.forall_mem_append.mp hnewline
  have hmatch := match_columns (n := n) hleft hspaced (Text.head_of_trim_eq hright c rfl) hl
    fun d hd => hr d (List.mem_cons_of_mem c hd)
  have hone : Match.between (.amid [] (left ++ (List.replicate (n + 2) ' ' ++ c :: rest)))
      (.amid left (List.replicate (n + 2) ' ' ++ c :: rest)) = left := Match.between_amid [] left _
  have htwo := Match.between_amid (left ++ List.replicate (n + 2) ' ') (c :: rest) []
  rw [List.append_nil] at htwo
  rw [FrontPage.columns?, hmatch]
  change some (Text.trim (Match.between _ _), Text.trim (Match.between _ _)) = _
  rw [hone, htwo, hleft, hright]

end Columns

/-- A cell of the left column is read unless it is blank. -/
def FrontPage.readCell (left : Text) (f : FrontPage) : FrontPage :=
  if left.isEmpty then f else f.readLeft left

namespace Row

variable {r : Row} {c : Char} (h : r.Laid)

theorem mem_line (hc : c ∈ r.line) : c = ' ' ∨ c ∈ r.left ++ r.right := by
  rw [line, List.mem_append, List.mem_append] at hc
  rcases hc with hc | hc | hc
  · exact .inr (List.mem_append_left _ hc)
  · exact .inl (List.eq_of_mem_replicate hc)
  · exact .inr (List.mem_append_right _ hc)

include h

theorem Laid.not_mem_line : ∀ c ∈ r.line, c ∉ ['\n', '\r', '\t', '\x0c'] := by
  intro c hc
  rcases mem_line hc with rfl | hc
  · decide
  · exact h.plain c hc

theorem Laid.isVisible : Text.isVisible r.line := by
  have hfeed : r.line.any (· == '\x0c') = false := by
    rw [List.any_eq_false]
    intro c hc hfeed
    rw [beq_iff_eq] at hfeed
    have hplain := h.not_mem_line c hc
    simp [hfeed] at hplain
  have hcell : ∃ c ∈ r.line, Text.isBlank c = false := by
    rcases h.filled with hne | hne
    · obtain ⟨c, left, hleft⟩ := List.exists_cons_of_ne_nil hne
      exact ⟨c, by simp [line, hleft], Text.head_of_trim_eq h.left_trim c (by rw [hleft]; rfl)⟩
    · obtain ⟨c, right, hright⟩ := List.exists_cons_of_ne_nil hne
      exact ⟨c, by simp [line, hright], Text.head_of_trim_eq h.right_trim c (by rw [hright]; rfl)⟩
  obtain ⟨c, hc, hblank⟩ := hcell
  have hne : Text.trim r.line ≠ [] := List.ne_nil_of_mem (Text.mem_trim hc hblank)
  rw [Text.isVisible, hfeed, Bool.not_false, Bool.true_and, Bool.not_eq_true', List.isEmpty_eq_false_iff]
  exact hne

theorem Laid.trimRight_line (hr : r.right ≠ []) : Text.trimRight r.line = r.line := by
  obtain ⟨right, c, hright⟩ := (List.eq_nil_or_concat' _).resolve_left hr
  have hc : Text.isBlank c = false := Text.last_of_trim_eq h.right_trim c (by rw [hright, List.getLast?_concat]; rfl)
  have hline : r.line = r.left ++ (List.replicate r.padding ' ' ++ right) ++ [c] := by
    rw [line, hright]
    simp only [List.append_assoc]
  rw [hline]
  exact Text.trimRight_append_cons hc (List.forall_mem_nil _) _

/-- Without a cell on the right, the line is trimmed to the one on the left. -/
theorem Laid.trimRight_line_of_nil (hr : r.right = []) : Text.trimRight r.line = r.left := by
  have hleft : r.left ≠ [] := h.filled.resolve_right (not_not_intro hr)
  obtain ⟨left, c, hleft⟩ := (List.eq_nil_or_concat' _).resolve_left hleft
  have hc : Text.isBlank c = false := Text.last_of_trim_eq h.left_trim c (by rw [hleft, List.getLast?_concat]; rfl)
  have hspaces : ∀ b ∈ List.replicate r.padding ' ', Text.isBlank b := by
    intro b hb
    rw [List.eq_of_mem_replicate hb]
    rfl
  rw [line, hr, List.append_nil, hleft, List.append_assoc, List.singleton_append]
  exact Text.trimRight_append_cons hc hspaces left

theorem Laid.trim_line (hl : r.left ≠ []) : Text.trim r.line = Text.trimRight r.line := by
  obtain ⟨c, left, hleft⟩ := List.exists_cons_of_ne_nil hl
  have hc : Text.isBlank c = false := Text.head_of_trim_eq h.left_trim c (by rw [hleft]; rfl)
  have hhead : Text.trimLeft r.line = r.line := by
    rw [line, hleft, List.cons_append, Text.trimLeft, List.dropWhile_cons_of_neg (by rw [hc]; exact Bool.false_ne_true)]
  rw [Text.trim, hhead]

theorem Laid.columns_line (hr : r.right ≠ []) : FrontPage.columns? r.line = some (r.left, r.right) :=
  columns_append h.left_trim h.left_spaced h.right_trim hr (h.apart hr) fun hmem => absurd (h.plain _ hmem) (by decide)

/-- A row is read cell by cell. -/
theorem Laid.readLine_line (num : Nat) (f : FrontPage) :
    f.readLine num r.line (Text.trim r.line) =
      if r.right.isEmpty then (f.readCell r.left).readLoneDate r.left
      else (f.readCell r.left).readRight num r.right := by
  by_cases hr : r.right = []
  · have hleft : r.left ≠ [] := h.filled.resolve_right (not_not_intro hr)
    have hspaced := columns_eq_none h.left_spaced
    rw [FrontPage.readLine, h.trim_line hleft, h.trimRight_line_of_nil hr, hspaced]
    simp [FrontPage.readCell, hleft, hr]
  · rw [FrontPage.readLine, h.trimRight_line hr, h.columns_line hr]
    simp [FrontPage.readCell, hr]

/-- The first row has the source on the left. -/
theorem Laid.readFirst_line (hl : r.left ≠ []) (hr : r.right ≠ []) (num : Nat) (f : FrontPage) :
    f.readFirst num (Text.trim r.line) =
      (FrontPage.readRight num r.right { f with header := { f.header with source := some r.left } }).readLeft r.left := by
  rw [FrontPage.readFirst, h.trim_line hl, h.trimRight_line hr, h.columns_line hr]

end Row
end Plain
end DraftLint
