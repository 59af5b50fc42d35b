import DraftLint.Text.Basic
import Mathlib.Data.List.Basic

/-!
# Pieces of a text

Where a text is divided, if it can be told from a character that one of the pieces does not have.
-/

namespace DraftLint.Text

variable {x : Char} {s s' t w w' : Text}

/-- What stands before the first of these characters. -/
theorem eq_of_append_cons_eq (hs : x ∉ s) (hs' : x ∉ s') (h : s ++ x :: w = s' ++ x :: w') :
    s = s' ∧ w = w' := by
  induction s generalizing s' with
  | nil =>
    cases s' with
    | nil => exact ⟨rfl, (List.cons.inj h).2⟩
    | cons c s' =>
      obtain rfl := (List.cons.inj h).1
      exact absurd (List.mem_cons_self ..) hs'
  | cons c s ih =>
    cases s' with
    | nil =>
      obtain rfl := (List.cons.inj h).1
      exact absurd (List.mem_cons_self ..) hs
    | cons c' s' =>
      obtain ⟨rfl, hrest⟩ := List.cons.inj h
      obtain ⟨rfl, hw⟩ := ih (fun hc => hs (List.mem_cons_of_mem _ hc))
        (fun hc => hs' (List.mem_cons_of_mem _ hc)) hrest
      exact ⟨rfl, hw⟩

/-- The last character belongs to the last piece. -/
theorem mem_of_append_eq_concat (ht : t ≠ []) (h : s ++ t = w ++ [x]) : x ∈ t := by
  obtain ⟨t, c, rfl⟩ := (List.eq_nil_or_concat' t).resolve_left ht
  rw [← List.append_assoc] at h
  obtain ⟨-, hlast⟩ := List.append_inj' h rfl
  rw [(List.cons.inj hlast).1]
  exact List.mem_append_right t (List.mem_singleton_self x)

/-- A text is cut at the first separator. -/
theorem cut_append (h : x ∉ s) (t : Text) : cut x (s ++ x :: t) = (s, t) := by
  have hs : ∀ c ∈ s, decide (c ≠ x) = true := fun c hc => decide_eq_true (ne_of_mem_of_not_mem hc h)
  rw [cut, List.takeWhile_append_of_pos hs, List.dropWhile_append_of_pos hs]
  simp

end DraftLint.Text
