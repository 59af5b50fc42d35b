import DraftLint.Text.Basic
import Mathlib.Data.List.Infix

/-!
# Lists of texts none of which begins another

Of such texts at most one stands at a place, and the texts that are put together from two such lists are a list of this
kind again.
-/

namespace DraftLint.Text

variable {xs ys xs' ys' : List Text} {t : Text}

/-- Every text of the first list with every text of the second after it. -/
def joined (xs ys : List Text) : List Text :=
  xs.flatMap fun x => ys.map (x ++ ·)

theorem mem_joined : t ∈ joined xs ys ↔ ∃ x ∈ xs, ∃ y ∈ ys, t = x ++ y := by
  simp only [joined, List.mem_flatMap, List.mem_map, eq_comm (a := t)]

theorem joined_assoc (xs ys zs : List Text) : joined (joined xs ys) zs = joined xs (joined ys zs) := by
  simp [joined, List.flatMap_assoc, List.map_flatMap, List.flatMap_map, Function.comp_def]

theorem joined_subset (hxs : xs ⊆ xs') (hys : ys ⊆ ys') : joined xs ys ⊆ joined xs' ys' := by
  intro t ht
  obtain ⟨x, hx, y, hy, rfl⟩ := mem_joined.mp ht
  exact mem_joined.mpr ⟨x, hxs hx, y, hys hy, rfl⟩

/-- No text of the list is the beginning of another. -/
def PrefixFree (ts : List Text) : Prop :=
  ∀ s ∈ ts, ∀ t ∈ ts, s <+: t → s = t

instance (ts : List Text) : Decidable (PrefixFree ts) :=
  inferInstanceAs (Decidable (∀ s ∈ ts, ∀ t ∈ ts, s <+: t → s = t))

/-- At most one text of the list stands at a place. -/
theorem PrefixFree.eq_of_begins {s s' : Text} (h : PrefixFree xs) (hs : s ∈ xs) (hs' : s' ∈ xs) (ht : s <+: t)
    (ht' : s' <+: t) : s = s' := by
  rcases List.prefix_or_prefix_of_prefix ht ht' with hbegins | hbegins
  · exact h s hs s' hs' hbegins
  · exact (h s' hs' s hs hbegins).symm

theorem prefixFree_singleton (t : Text) : PrefixFree [t] := by
  intro s hs s' hs' _
  rw [List.mem_singleton.mp hs, List.mem_singleton.mp hs']

theorem PrefixFree.joined (hxs : PrefixFree xs) (hys : PrefixFree ys) : PrefixFree (joined xs ys) := by
  intro s hs t ht hbegins
  obtain ⟨x, hx, y, hy, rfl⟩ := mem_joined.mp hs
  obtain ⟨x', hx', y', hy', rfl⟩ := mem_joined.mp ht
  obtain rfl := hxs.eq_of_begins hx hx' ((List.prefix_append x y).trans hbegins) (List.prefix_append x' y')
  rw [List.prefix_append_right_inj] at hbegins
  rw [hys y hy y' hy' hbegins]

/-- Nowhere in the text does another one begin, and neither does it begin at the end of the text in part. -/
def ClearOf (s t : Text) : Prop :=
  ∀ u ∈ t.tails, u ≠ [] → ¬(u <+: s ∨ s <+: u)

instance (s t : Text) : Decidable (ClearOf s t) :=
  inferInstanceAs (Decidable (∀ u ∈ t.tails, u ≠ [] → ¬(u <+: s ∨ s <+: u)))

section ClearOf

variable {s u v w : Text}

/-- What such a text ends with and the other one do not stand at one place. -/
theorem ClearOf.not_begins (h : ClearOf s (u ++ v)) (hne : v ≠ []) (hv : v <+: w) : ¬s <+: w :=
  fun hs => h v ((List.mem_tails _ _).mpr (List.suffix_append u v)) hne (List.prefix_or_prefix_of_prefix hv hs)

theorem ClearOf.append (ht : ClearOf s t) (hu : ClearOf s u) : ClearOf s (t ++ u) := by
  intro x hx hne hagree
  obtain ⟨y, hy⟩ := (List.mem_tails _ _).mp hx
  rcases List.append_eq_append_iff.mp hy with ⟨z, rfl, rfl⟩ | ⟨z, rfl, rfl⟩
  · cases z with
    | nil => exact hu u ((List.mem_tails _ _).mpr List.suffix_rfl) hne hagree
    | cons c z =>
      rcases hagree with hbegins | hbegins
      · exact ht.not_begins (List.cons_ne_nil c z) ((List.prefix_append _ u).trans hbegins) List.prefix_rfl
      · exact ht.not_begins (List.cons_ne_nil c z) (List.prefix_append _ u) hbegins
  · exact hu x ((List.mem_tails _ _).mpr (List.suffix_append z x)) hne hagree

end ClearOf

end DraftLint.Text
