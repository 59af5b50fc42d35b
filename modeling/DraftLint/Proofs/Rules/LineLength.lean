import DraftLint.Proofs.Text.Lines
import DraftLint.Proofs.Text.Pieces
import DraftLint.Proofs.Text.Writing
import DraftLint.Rules.PlainLayout

/-!
# Long lines

Whether a line is too long is decided without the form feeds at its end, but which of the long lines is the longest, and
how long that is, with them.  So the nit is right about the longest line exactly if that does not end in a form feed.
-/

namespace DraftLint.Rules

open Finding Issue

/-- The number of characters on a line, form feeds at its end apart. -/
def width (line : Text) : Nat :=
  (Text.dropRightWhile (· == '\x0c') line).length

/-- No line has more characters, form feeds counted, and those in front have fewer. -/
def FirstLongest (lines : List (Nat × Text)) (l : Nat × Text) : Prop :=
  ∃ front behind, lines = front ++ l :: behind ∧ (∀ k ∈ front, k.2.length < l.2.length) ∧
    ∀ k ∈ behind, k.2.length ≤ l.2.length

section Width

variable {line : Text}

end Width

section Longest

variable {lines : List (Nat × Text)} {l k : Nat × Text}

theorem FirstLongest.mem (h : FirstLongest lines l) : l ∈ lines := by
  obtain ⟨front, behind, rfl, -, -⟩ := h
  exact List.mem_append_right front List.mem_cons_self

theorem FirstLongest.le (h : FirstLongest lines l) (hk : k ∈ lines) : k.2.length ≤ l.2.length := by
  obtain ⟨front, behind, rfl, hfront, hbehind⟩ := h
  rcases List.mem_append.mp hk with hk | hk
  · exact Nat.le_of_lt (hfront k hk)
  · rcases List.mem_cons.mp hk with rfl | hk
    · exact Nat.le_refl _
    · exact hbehind k hk

/-- There is one first of the longest lines. -/
theorem FirstLongest.unique (h : FirstLongest lines l) (h' : FirstLongest lines k) : l = k := by
  obtain ⟨front, behind, rfl, hfront, hbehind⟩ := h
  obtain ⟨front', behind', hsplit, hfront', hbehind'⟩ := h'
  have hle : k.2.length ≤ l.2.length := FirstLongest.le ⟨front, behind, rfl, hfront, hbehind⟩ (by rw [hsplit]; simp)
  have hle' : l.2.length ≤ k.2.length := FirstLongest.le ⟨front', behind', hsplit, hfront', hbehind'⟩ (by simp)
  rcases List.append_eq_append_iff.mp hsplit with ⟨mid, rfl, hmid⟩ | ⟨mid, rfl, hmid⟩
  · cases mid with
    | nil => exact (List.cons.inj hmid).1
    | cons j mid =>
      have hlt := hfront' l (by rw [(List.cons.inj hmid).1]; simp)
      omega
  · cases mid with
    | nil => exact (List.cons.inj hmid).1.symm
    | cons j mid =>
      have hlt := hfront k (by rw [(List.cons.inj hmid).1]; simp)
      omega

end Longest

section Message

end Message

section Nits

variable {d : Plain.Document} {l k : Nat × Text} {ns : List Nit}

/-- A line of a document is told by its number. -/
theorem eq_of_fst_eq (hl : l ∈ d.lines) (hk : k ∈ d.lines) (h : l.1 = k.1) : l = k := by
  obtain ⟨-, hl⟩ := Text.mem_numberFrom_iff.mp hl
  obtain ⟨-, hk⟩ := Text.mem_numberFrom_iff.mp hk
  rw [h, hk] at hl
  exact Prod.ext h (Option.some.inj hl).symm

end Nits

end DraftLint.Rules
