import DraftLint.Text.Basic
import Mathlib.Data.List.Nodup

/-!
# Distinct items

The items of a list, each where it first occurs, and distinct texts in their order.
-/

namespace DraftLint

namespace Text

section Distinct

variable {α β : Type} [BEq α] [BEq β]

theorem mem_distinct_go {seen xs : List α} {x : α} (h : x ∈ distinct.go seen xs) :
    x ∈ seen ∨ x ∈ xs := by
  induction xs generalizing seen with
  | nil => exact Or.inl h
  | cons y xs ih =>
    rw [distinct.go] at h
    split at h
    · exact (ih h).imp_right (List.mem_cons_of_mem _)
    · rcases ih h with h | h
      · rcases List.mem_append.mp h with h | h
        · exact Or.inl h
        · rw [List.mem_singleton.mp h]
          exact Or.inr (List.mem_cons_self ..)
      · exact Or.inr (List.mem_cons_of_mem _ h)

theorem mem_of_mem_distinct {xs : List α} {x : α} (h : x ∈ distinct xs) : x ∈ xs :=
  (mem_distinct_go h).resolve_left List.not_mem_nil

theorem distinct_go_append (seen xs ys : List α) :
    distinct.go seen (xs ++ ys) = distinct.go (distinct.go seen xs) ys := by
  induction xs generalizing seen with
  | nil => rfl
  | cons x xs ih =>
    rw [List.cons_append, distinct.go, distinct.go]
    split <;> exact ih _

/-- What was seen goes first, and each further item follows where it first occurs. -/
theorem distinct_go_eq [LawfulBEq α] (seen xs : List α) :
    distinct.go seen xs = seen ++ (xs.removeAll seen).eraseDups := by
  induction xs generalizing seen with
  | nil => simp [distinct.go, List.removeAll]
  | cons x xs ih =>
    rw [distinct.go]
    cases hx : seen.contains x with
    | true =>
      rw [if_pos rfl, ih seen, List.removeAll, List.removeAll, List.filter_cons_of_neg]
      simpa using hx
    | false =>
      have hrest : (xs.removeAll seen).filter (fun y => !y == x) = xs.removeAll (seen ++ [x]) := by
        simp only [List.removeAll, List.filter_filter]
        apply List.filter_congr
        intro y _
        rw [Bool.eq_iff_iff]
        simp [and_comm]
      rw [if_neg Bool.false_ne_true, ih (seen ++ [x]), ← hrest, List.append_assoc, List.removeAll,
        List.removeAll, List.filter_cons_of_pos (by simpa using hx), List.eraseDups_cons]
      rfl

theorem distinct_eq_eraseDups [LawfulBEq α] (xs : List α) : distinct xs = xs.eraseDups := by
  rw [distinct, distinct_go_eq]
  simp [List.removeAll]

theorem mem_distinct [LawfulBEq α] {xs : List α} {x : α} : x ∈ distinct xs ↔ x ∈ xs := by
  rw [distinct_eq_eraseDups, List.mem_eraseDups]

theorem nodup_distinct_go [LawfulBEq α] {seen xs : List α} (h : seen.Nodup) :
    (distinct.go seen xs).Nodup := by
  induction xs generalizing seen with
  | nil => exact h
  | cons x xs ih =>
    rw [distinct.go]
    split
    · exact ih h
    · rename_i hx
      apply ih
      rw [List.nodup_append]
      refine ⟨h, List.nodup_singleton x, ?_⟩
      rintro a ha b hb rfl
      rw [List.mem_singleton.mp hb] at ha
      exact hx (List.contains_iff_mem.mpr ha)

theorem nodup_distinct [LawfulBEq α] (xs : List α) : (distinct xs).Nodup :=
  nodup_distinct_go List.nodup_nil

/-- What keeps items apart, as far as it keeps them at all, can be done before or after. -/
theorem distinct_go_filterMap [LawfulBEq α] [LawfulBEq β] (f : α → Option β) (seen xs : List α)
    (hf : ∀ x ∈ seen ++ xs, ∀ y ∈ seen ++ xs, ∀ b, f x = some b → f y = some b → x = y) :
    distinct.go (seen.filterMap f) (xs.filterMap f) = (distinct.go seen xs).filterMap f := by
  induction xs generalizing seen with
  | nil => rfl
  | cons x xs ih =>
    have hshift : ∀ y ∈ (seen ++ [x]) ++ xs, y ∈ seen ++ x :: xs := by simp
    have hkeep : ∀ y ∈ seen ++ xs, y ∈ seen ++ x :: xs := by
      intro y hy
      rcases List.mem_append.mp hy with hy | hy
      · exact List.mem_append_left _ hy
      · exact List.mem_append_right _ (List.mem_cons_of_mem _ hy)
    have hseen := ih seen fun a ha b hb => hf a (hkeep a ha) b (hkeep b hb)
    have hnew := ih (seen ++ [x]) fun a ha b hb => hf a (hshift a ha) b (hshift b hb)
    rw [distinct.go]
    cases hx : f x with
    | none =>
      rw [List.filterMap_cons_none hx]
      rw [List.filterMap_append, List.filterMap_cons_none hx, List.filterMap_nil,
        List.append_nil] at hnew
      split
      · exact hseen
      · exact hnew
    | some b =>
      rw [List.filterMap_cons_some hx, distinct.go]
      rw [List.filterMap_append, List.filterMap_cons_some hx, List.filterMap_nil] at hnew
      have hmem : (seen.filterMap f).contains b = seen.contains x := by
        rw [Bool.eq_iff_iff, List.contains_iff_mem, List.contains_iff_mem, List.mem_filterMap]
        constructor
        · rintro ⟨y, hy, hb⟩
          have hxy := hf x (by simp) y (List.mem_append_left _ hy) b hx hb
          rwa [hxy]
        · exact fun h => ⟨x, h, hx⟩
      rw [hmem]
      split
      · exact hseen
      · exact hnew

theorem distinct_filterMap [LawfulBEq α] [LawfulBEq β] (f : α → Option β) (xs : List α)
    (hf : ∀ x ∈ xs, ∀ y ∈ xs, ∀ b, f x = some b → f y = some b → x = y) :
    distinct (xs.filterMap f) = (distinct xs).filterMap f :=
  distinct_go_filterMap f [] xs hf

end Distinct

section Order

variable {s t : Text}

theorem le_cons_iff {c d : Char} : le (c :: s) (d :: t) ↔ c.toNat < d.toNat ∨ (c = d ∧ le s t) := by
  rw [le, Bool.or_eq_true, decide_eq_true_eq, Bool.and_eq_true, beq_iff_eq]

theorem le_total (s t : Text) : le s t ∨ le t s := by
  induction s generalizing t with
  | nil => exact .inl rfl
  | cons c s ih =>
    cases t with
    | nil => exact .inr rfl
    | cons d t =>
      rw [le_cons_iff, le_cons_iff]
      rcases Nat.lt_trichotomy c.toNat d.toNat with hlt | heq | hlt
      · exact .inl (.inl hlt)
      · have hcd : c = d := Char.toNat_inj.mp heq
        exact (ih t).imp (fun h => .inr ⟨hcd, h⟩) fun h => .inr ⟨hcd.symm, h⟩
      · exact .inr (.inl hlt)

theorem le_trans {s t u : Text} (h : le s t) (h' : le t u) : le s u := by
  induction s generalizing t u with
  | nil => rfl
  | cons c s ih =>
    cases t with
    | nil => cases h
    | cons d t =>
      cases u with
      | nil => cases h'
      | cons e u =>
        rw [le_cons_iff] at h h' ⊢
        rcases h with hlt | ⟨rfl, hle⟩
        · rcases h' with hlt' | ⟨rfl, -⟩
          · exact .inl (Nat.lt_trans hlt hlt')
          · exact .inl hlt
        · exact h'.imp_right fun ⟨heq, hle'⟩ => ⟨heq, ih hle hle'⟩

/-- The distinct texts are in strict order. -/
theorem pairwise_sortedSet (ts : List Text) : (sortedSet ts).Pairwise fun s t => le s t ∧ s ≠ t := by
  have htotal : ∀ s t : Text, (le s t || le t s) = true := fun s t => Bool.or_eq_true_iff.mpr (le_total s t)
  have htrans : ∀ s t u : Text, le s t = true → le t u = true → le s u = true := fun _ _ _ => le_trans
  have hsorted : (sortedSet ts).Pairwise fun s t => le s t := List.pairwise_mergeSort htrans htotal (distinct ts)
  have hnodup : (sortedSet ts).Nodup := (List.mergeSort_perm (distinct ts) le).nodup_iff.mpr (nodup_distinct ts)
  exact hsorted.and hnodup

theorem mem_sortedSet {ts : List Text} : t ∈ sortedSet ts ↔ t ∈ ts := by
  rw [sortedSet, List.mem_mergeSort, mem_distinct]

end Order

end Text

end DraftLint
