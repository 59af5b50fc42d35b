import DraftLint.Proofs.Pattern.Preference
import DraftLint.Proofs.Text.Words

/-!
# Matches between blanks

A pattern that has no blank in any of its sets does not read over one.
-/

namespace DraftLint.Pattern

/-- No set of the pattern has a blank in it. -/
def Unblanked (p : Pattern) : Prop :=
  ∀ c, Text.isBlank c → p.avoids c

variable {p : Pattern} {r : Reach} {m : Match} {s : CharSet} {t u v w : Text} {fuel : Nat}

theorem Reads.not_isBlank {r' : Reach} (hp : p.Unblanked) (h : Reads p r t r') : ∀ c ∈ t, Text.isBlank c = false := by
  intro c hc
  rw [Bool.eq_false_iff]
  intro hblank
  exact h.not_mem (hp c hblank) hc

/-- What is read in front of a blank, or of the end, ends there. -/
theorem Reads.prefix_of_isBlank {captures : List Capture} (hp : p.Unblanked)
    (h : Reads p ⟨.amid u (t ++ v), captures⟩ w r) (hv : ∀ c ∈ v.head?, Text.isBlank c) : w <+: t :=
  Text.prefix_of_append_eq (h.not_isBlank hp) hv h.advance.1

/-- A match that starts in front of a blank ends in front of it. -/
theorem stop_le_of_isBlank (hp : p.Unblanked) (h : p.matchAt fuel (.amid u (t ++ v)) = some m) (hne : t ≠ [])
    (ht : ∀ c ∈ t.getLast?, Text.isBlank c) : m.stop.pos ≤ (u ++ t).length := by
  obtain ⟨w, hread⟩ := reads_of_matchAt h
  obtain ⟨t, b, rfl⟩ := (List.eq_nil_or_concat' t).resolve_left hne
  have hpos : m.stop.pos = u.length + w.length := hread.advance.2
  rw [List.append_assoc] at hread
  have hle := (hread.prefix_of_isBlank hp fun c hc => ht c (by rwa [List.getLast?_concat])).length_le
  simp only [List.length_append, List.length_singleton]
  omega

/-- No character of a set without blanks stands behind a blank or the start. -/
theorem holds_notAfter (hs : ∀ c, Text.isBlank c → s c = false) (hu : ∀ c ∈ u.getLast?, Text.isBlank c) (v : Text) :
    (Anchor.notAfter [s]).holds (.amid u v) := by
  rw [← List.head?_reverse] at hu
  rw [Anchor.holds, Cursor.amid, List.reverse_singleton]
  cases hr : u.reverse with
  | nil => rfl
  | cons c r => rw [Cursor.sees, hs c (hu c (by rw [hr]; rfl)), Bool.false_and, Bool.not_false]

end DraftLint.Pattern
