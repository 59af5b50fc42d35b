import DraftLint.Text.Lines

/-!
# Numbered lines

Numbers rise by one from line to line.  A line is visible if it is neither blank nor a page break, and
the visible lines between two numbers grow only at the end while a text is read.
-/

namespace DraftLint.Text

section Numbers

variable {α : Type}

@[simp] theorem length_numberFrom (n : Nat) (xs : List α) :
    (numberFrom n xs).length = xs.length := by
  induction xs generalizing n with
  | nil => rfl
  | cons x xs ih => simp [numberFrom, ih]

theorem numberFrom_append (n : Nat) (xs ys : List α) :
    numberFrom n (xs ++ ys) = numberFrom n xs ++ numberFrom (n + xs.length) ys := by
  induction xs generalizing n with
  | nil => rfl
  | cons x xs ih => simp [numberFrom, ih, Nat.add_comm, Nat.add_left_comm]

/-- One more item has the next number. -/
theorem numberFrom_concat (xs : List α) (x : α) :
    numberFrom 1 (xs ++ [x]) = numberFrom 1 xs ++ [(xs.length + 1, x)] := by
  rw [numberFrom_append, Nat.add_comm 1]
  rfl

theorem bounds_of_mem_numberFrom {n : Nat} {xs : List α} {l : Nat × α} (h : l ∈ numberFrom n xs) :
    n ≤ l.1 ∧ l.1 < n + xs.length := by
  induction xs generalizing n with
  | nil => simp [numberFrom] at h
  | cons x xs ih =>
    rcases List.mem_cons.mp h with rfl | h
    · exact ⟨Nat.le_refl _, by simp⟩
    · have hb := ih h
      exact ⟨by omega, by simp only [List.length_cons]; omega⟩

/-- Items by their numbers. -/
theorem mem_numberFrom_iff {n num : Nat} {x : α} {xs : List α} :
    (num, x) ∈ numberFrom n xs ↔ n ≤ num ∧ xs[num - n]? = some x := by
  induction xs generalizing n with
  | nil => simp [numberFrom]
  | cons y ys ih =>
    rw [numberFrom, List.mem_cons, ih, Prod.mk.injEq]
    rcases Nat.lt_trichotomy num n with hlt | rfl | hgt
    · simp only [Nat.not_le.mpr hlt, Nat.not_le.mpr (Nat.lt_succ_of_lt hlt), Nat.ne_of_lt hlt, false_and, or_self]
    · rw [Nat.sub_self, List.getElem?_cons_zero, Option.some_inj]
      constructor
      · rintro (⟨-, rfl⟩ | ⟨h, -⟩)
        · exact ⟨Nat.le_refl num, rfl⟩
        · exact absurd h (Nat.not_succ_le_self num)
      · exact fun h => .inl ⟨rfl, h.2.symm⟩
    · obtain ⟨k, rfl⟩ := Nat.exists_eq_add_of_lt hgt
      have hpred : n + k + 1 - (n + 1) = k := by omega
      have hsub : n + k + 1 - n = k + 1 := by omega
      rw [hpred, hsub, List.getElem?_cons_succ]
      constructor
      · rintro (⟨h, -⟩ | h)
        · omega
        · exact ⟨by omega, h.2⟩
      · rintro ⟨-, h⟩
        exact .inr ⟨by omega, h⟩

/-- An item has the number of those in front of it. -/
theorem fst_of_numberFrom_eq {n : Nat} {xs : List α} {front behind : List (Nat × α)} {l : Nat × α}
    (h : numberFrom n xs = front ++ l :: behind) : l.1 = n + front.length := by
  induction front generalizing n xs with
  | nil =>
    cases xs with
    | nil => cases h
    | cons x xs =>
      obtain ⟨rfl, -⟩ := List.cons.inj h
      rfl
  | cons k front ih =>
    cases xs with
    | nil => cases h
    | cons x xs =>
      obtain ⟨-, hrest⟩ := List.cons.inj h
      have hnumber := ih hrest
      simp only [List.length_cons]
      omega

/-- Numbers do not matter to what is made of the items alone. -/
theorem flatMap_numberFrom {β : Type} (f : α → List β) (n : Nat) (xs : List α) :
    (numberFrom n xs).flatMap (fun l => f l.2) = xs.flatMap f := by
  induction xs generalizing n with
  | nil => rfl
  | cons x xs ih => rw [numberFrom, List.flatMap_cons, List.flatMap_cons, ih]

theorem take_numberFrom (n k : Nat) (xs : List α) :
    (numberFrom n xs).take k = numberFrom n (xs.take k) := by
  induction k generalizing n xs with
  | zero => simp [numberFrom]
  | succ k ih =>
    cases xs with
    | nil => rfl
    | cons x xs => simp [numberFrom, ih]

end Numbers

/-- The line is neither blank nor a page break. -/
def isVisible (line : Text) : Bool :=
  !line.any (· == '\x0c') && !(trim line).isEmpty

/-- No line has a number above `n`. -/
def Below (n : Nat) (lines : List (Nat × Text)) : Prop :=
  ∀ l ∈ lines, l.1 ≤ n

theorem below_numberFrom (ls : List Text) : Below ls.length (numberFrom 1 ls) := by
  intro l hl
  have hb := bounds_of_mem_numberFrom hl
  omega

theorem Below.concat {n : Nat} {lines : List (Nat × Text)} (h : Below n lines) (line : Text) :
    Below (n + 1) (lines ++ [(n + 1, line)]) := by
  intro l hl
  rcases List.mem_append.mp hl with hl | hl
  · exact Nat.le_succ_of_le (h l hl)
  · obtain rfl := List.mem_singleton.mp hl
    exact Nat.le_refl _

/-- The visible lines after line `start` up to line `stop`, without the blanks around them. -/
def visibleBetween (start stop : Nat) (lines : List (Nat × Text)) : List Text :=
  (lines.filter fun l => start < l.1 && l.1 ≤ stop && isVisible l.2).map fun l => trim l.2

section Between

variable {start stop n : Nat} {lines : List (Nat × Text)} {line : Text}

theorem visibleBetween_append (lines' : List (Nat × Text)) :
    visibleBetween start stop (lines ++ lines') =
      visibleBetween start stop lines ++ visibleBetween start stop lines' := by
  simp [visibleBetween]

theorem visibleBetween_singleton (num : Nat) :
    visibleBetween start stop [(num, line)] =
      if start < num ∧ num ≤ stop ∧ isVisible line then [trim line] else [] := by
  by_cases h : start < num ∧ num ≤ stop ∧ isVisible line
  · simp [visibleBetween, h]
  · rw [if_neg h, visibleBetween, List.filter_cons_of_neg]
    · rfl
    · simpa [and_assoc] using h

theorem visibleBetween_of_le (h : Below n lines) (hs : n ≤ start) :
    visibleBetween start stop lines = [] := by
  unfold visibleBetween
  rw [List.map_eq_nil_iff, List.filter_eq_nil_iff]
  intro l hl
  have hn := h l hl
  simp only [Bool.and_eq_true, decide_eq_true_eq, not_and]
  omega

/-- Beyond the last line the upper bound does not matter. -/
theorem visibleBetween_stop (h : Below n lines) (hs : n ≤ stop) :
    visibleBetween start stop lines = visibleBetween start n lines := by
  unfold visibleBetween
  congr 1
  apply List.filter_congr
  intro l hl
  have hn := h l hl
  simp [hn, Nat.le_trans hn hs]

/-- A line beyond the upper bound is left out. -/
theorem visibleBetween_concat_of_le (hs : stop ≤ n) :
    visibleBetween start stop (lines ++ [(n + 1, line)]) = visibleBetween start stop lines := by
  rw [visibleBetween_append, visibleBetween_singleton, if_neg (by omega), List.append_nil]

/-- The next line comes after the lines so far. -/
theorem visibleBetween_concat (h : Below n lines) (hs : start ≤ n) :
    visibleBetween start (n + 1) (lines ++ [(n + 1, line)]) =
      visibleBetween start n lines ++ if isVisible line then [trim line] else [] := by
  rw [visibleBetween_append, visibleBetween_stop h (Nat.le_succ n), visibleBetween_singleton]
  have hn : start < n + 1 := by omega
  simp [hn]

end Between

end DraftLint.Text
