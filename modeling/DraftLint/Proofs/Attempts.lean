import Mathlib.Data.List.Forall2

/-!
# Attempts in a row

Items are taken one after the other, each of which gives a value or fails.  All values come of it, or else
the first failure.
-/

namespace DraftLint.Attempts

variable {α β ε : Type} {f : α → Except ε β}

/-- An attempt that can be computed gives a value of which something is so. -/
theorem exists_of_decide {x : Except ε α} {p : α → Prop} [DecidablePred p]
    (h : (match x with
      | .error _ => false
      | .ok a => decide (p a)) = true) :
    ∃ a, x = .ok a ∧ p a := by
  cases x with
  | error e => cases h
  | ok a => exact ⟨a, rfl, of_decide_eq_true h⟩

theorem mapM_eq_ok_iff {xs : List α} {ys : List β} :
    xs.mapM f = .ok ys ↔ List.Forall₂ (fun x y => f x = .ok y) xs ys := by
  induction xs generalizing ys with
  | nil => simp [pure, Except.pure, eq_comm]
  | cons x xs ih =>
    rw [List.mapM_cons]
    cases hx : f x with
    | error e => simp [bind, Except.bind, List.forall₂_cons_left_iff, hx]
    | ok y =>
      cases hxs : xs.mapM f with
      | error e => simp [bind, Except.bind, List.forall₂_cons_left_iff, ← ih, hxs]
      | ok rest =>
        simp [bind, Except.bind, pure, Except.pure, List.forall₂_cons_left_iff, ← ih, hxs, hx, eq_comm]

theorem exists_mapM_eq_ok_iff {xs : List α} :
    (∃ ys, xs.mapM f = .ok ys) ↔ ∀ x ∈ xs, ∃ y, f x = .ok y := by
  simp only [mapM_eq_ok_iff]
  induction xs with
  | nil => simp
  | cons x xs ih =>
    rw [List.forall_mem_cons, ← ih]
    constructor
    · rintro ⟨ys, h⟩
      cases h with
      | cons hx hxs => exact ⟨⟨_, hx⟩, _, hxs⟩
    · rintro ⟨⟨y, hx⟩, ys, hxs⟩
      exact ⟨y :: ys, hxs.cons hx⟩

/-- What holds of each item and its value, if the value matters only so far. -/
theorem forall_zip_iff {β : Type} {R p : α → β → Prop} {q : α → Prop} {xs : List α} {ys : List β}
    (h : List.Forall₂ R xs ys) (hq : ∀ x y, R x y → (p x y ↔ q x)) :
    (∀ e ∈ xs.zip ys, p e.1 e.2) ↔ ∀ x ∈ xs, q x := by
  induction h with
  | nil => simp
  | cons hxy hrest ih => rw [List.zip_cons_cons, List.forall_mem_cons, List.forall_mem_cons, hq _ _ hxy, ih]

/-- An item fails, and none before it does. -/
def FailsFirst (f : α → Except ε β) (e : ε) (xs : List α) : Prop :=
  ∃ before x after, xs = before ++ x :: after ∧ (∀ y ∈ before, ∃ b, f y = .ok b) ∧ f x = .error e

theorem not_failsFirst_nil {e : ε} : ¬FailsFirst f e [] := by
  rintro ⟨before, x, after, h, -⟩
  simp at h

theorem failsFirst_cons {e : ε} {x : α} {xs : List α} :
    FailsFirst f e (x :: xs) ↔ f x = .error e ∨ (∃ b, f x = .ok b) ∧ FailsFirst f e xs := by
  constructor
  · rintro ⟨before, y, after, hxs, hbefore, hy⟩
    cases before with
    | nil =>
      obtain ⟨rfl, rfl⟩ := List.cons.inj hxs
      exact .inl hy
    | cons x' before =>
      obtain ⟨rfl, rfl⟩ := List.cons.inj hxs
      have hrest := fun y' hy' => hbefore y' (List.mem_cons_of_mem _ hy')
      exact .inr ⟨hbefore x (List.mem_cons_self ..), before, y, after, rfl, hrest, hy⟩
  · rintro (hx | ⟨hx, before, y, after, rfl, hbefore, hy⟩)
    · exact ⟨[], x, xs, rfl, by simp, hx⟩
    · exact ⟨x :: before, y, after, rfl, List.forall_mem_cons.mpr ⟨hx, hbefore⟩, hy⟩

theorem mapM_eq_error_iff {xs : List α} {e : ε} : xs.mapM f = .error e ↔ FailsFirst f e xs := by
  induction xs with
  | nil => simp [not_failsFirst_nil, pure, Except.pure]
  | cons x xs ih =>
    rw [List.mapM_cons, failsFirst_cons, ← ih]
    cases hx : f x with
    | error e' => simp [bind, Except.bind]
    | ok y =>
      cases hxs : xs.mapM f with
      | error e' => simp [bind, Except.bind]
      | ok rest => simp [bind, Except.bind, pure, Except.pure]

/-- A choice of items comes about if none of them fails, and it takes those that it should. -/
theorem exists_filterM_eq_ok {p : α → Except ε Bool} {xs : List α} (h : ∀ x ∈ xs, ∃ b, p x = .ok b) :
    ∃ ys, xs.filterM p = .ok ys ∧ ∀ x, x ∈ ys ↔ x ∈ xs ∧ p x = .ok true := by
  have hchosen : ∀ chosen : List α, ∃ ys, xs.filterAuxM p chosen = .ok ys ∧
      ∀ x, x ∈ ys ↔ x ∈ chosen ∨ x ∈ xs ∧ p x = .ok true := by
    induction xs with
    | nil => exact fun chosen => ⟨chosen, rfl, fun x => by simp⟩
    | cons x xs ih =>
      intro chosen
      obtain ⟨b, hb⟩ := h x (List.mem_cons_self ..)
      obtain ⟨ys, hys, hmem⟩ := ih (fun y hy => h y (List.mem_cons_of_mem _ hy)) (cond b (x :: chosen) chosen)
      refine ⟨ys, by rw [List.filterAuxM, hb]; exact hys, fun y => ?_⟩
      rw [hmem, List.mem_cons]
      by_cases hyx : y = x
      · subst hyx
        cases b <;> simp [hb]
      · cases b <;> simp [hyx]
  obtain ⟨ys, hys, hmem⟩ := hchosen []
  refine ⟨ys.reverse, by rw [List.filterM, hys]; rfl, fun x => ?_⟩
  rw [List.mem_reverse, hmem, or_iff_right List.not_mem_nil]

end DraftLint.Attempts
