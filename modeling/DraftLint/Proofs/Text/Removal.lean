import DraftLint.Text.Basic
import Mathlib.Data.List.Basic
import Mathlib.Tactic.SplitIfs

/-!
# What a removal leaves

When stretches of a text are taken out from the left, the pieces between them hold nothing of the kind that is
removed.  What they come to together may hold it again, but only across a joint, where something was taken out.
-/

namespace DraftLint.Text

/-- What is left of the text are these pieces: something in `L` was taken out between each two of them. -/
inductive Leaves (L : Text → Prop) : Text → List Text → Prop
  | whole (t : Text) : Leaves L t [t]
  | cut {w t : Text} {ps : List Text} (u : Text) (hw : L w) (h : Leaves L t ps) : Leaves L (u ++ w ++ t) (u :: ps)

/-- What stands after `a` goes on, as `w`, over the joint between two of the pieces. -/
def Across (ps : List Text) (a w : Text) : Prop :=
  ∃ qs qs', ps = qs ++ qs' ∧ a.length < qs.flatten.length ∧ qs.flatten.length < a.length + w.length

section Leaves

variable {L L' : Text → Prop} {s t w x y : Text} {ps qs : List Text}

theorem Leaves.mono (h : Leaves L t ps) (hL : ∀ w, L w → L' w) : Leaves L' t ps := by
  induction h with
  | whole t => exact .whole t
  | cut u hw h ih => exact ih.cut u (hL _ hw)

theorem Leaves.subset (h : Leaves L t ps) : ps.flatten ⊆ t := by
  induction h with
  | whole t => simp
  | cut u hw h ih =>
    rw [List.flatten_cons, List.append_assoc, List.append_subset]
    exact ⟨List.subset_append_left u _, List.subset_append_of_subset_right _ (List.subset_append_of_subset_right _ ih)⟩

theorem Leaves.append (h : Leaves L s ps) (hw : L w) (h' : Leaves L t qs) : Leaves L (s ++ w ++ t) (ps ++ qs) := by
  induction h with
  | whole s => exact .cut s hw h'
  | cut u hv h ih =>
    have hall := ih.cut u hv
    simpa using hall

/-- Where what is left is divided, the text can be divided as well. -/
theorem Leaves.split (h : Leaves L t ps) (hflat : ps.flatten = x ++ y) :
    ∃ s s' qs qs', t = s ++ s' ∧ Leaves L s qs ∧ Leaves L s' qs' ∧ qs.flatten = x ∧ qs'.flatten = y ∧
      ∀ q ∈ qs ++ qs', ∃ p ∈ ps, q <:+: p := by
  induction h generalizing x with
  | whole t =>
    have ht : t = x ++ y := by simpa using hflat
    refine ⟨x, y, [x], [y], ht, .whole x, .whole y, by simp, by simp, ?_⟩
    simp only [List.singleton_append, List.mem_cons, List.not_mem_nil, or_false, exists_eq_left, ht]
    rintro q (rfl | rfl)
    · exact (List.prefix_append q y).isInfix
    · exact (List.suffix_append x q).isInfix
  | @cut w t ps u hw h ih =>
    rw [List.flatten_cons, List.append_eq_append_iff] at hflat
    rcases hflat with ⟨c, rfl, hps⟩ | ⟨c, rfl, rfl⟩
    · obtain ⟨s, s', qs, qs', rfl, hs, hs', rfl, rfl, hin⟩ := ih hps
      refine ⟨u ++ w ++ s, s', u :: qs, qs', by simp, hs.cut u hw, hs', by simp, rfl, ?_⟩
      rw [List.cons_append, List.forall_mem_cons]
      refine ⟨⟨u, List.mem_cons_self .., List.infix_rfl⟩, fun q hq => ?_⟩
      obtain ⟨p, hp, hqp⟩ := hin q hq
      exact ⟨p, List.mem_cons_of_mem _ hp, hqp⟩
    · refine ⟨x, c ++ w ++ t, [x], c :: ps, by simp, .whole x, h.cut c hw, by simp, by simp, ?_⟩
      rw [List.singleton_append, List.forall_mem_cons, List.forall_mem_cons]
      refine ⟨?_, ?_, fun q hq => ⟨q, List.mem_cons_of_mem _ hq, List.infix_rfl⟩⟩
      · exact ⟨x ++ c, List.mem_cons_self .., (List.prefix_append x c).isInfix⟩
      · exact ⟨x ++ c, List.mem_cons_self .., (List.suffix_append x c).isInfix⟩

/-- Two removals one after the other are one removal, and leave parts of what each of them leaves.  What the
second takes out may contain something that the first has taken out. -/
theorem Leaves.trans (h : Leaves L t ps) (h' : Leaves L' ps.flatten qs)
    (hL : ∀ s rs, Leaves L s rs → L' rs.flatten → L s) :
    ∃ rs, Leaves L t rs ∧ rs.flatten = qs.flatten ∧ ∀ r ∈ rs, (∃ p ∈ ps, r <:+: p) ∧ ∃ q ∈ qs, r <:+: q := by
  generalize hc : ps.flatten = c at h'
  induction h' generalizing t ps with
  | whole c =>
    refine ⟨ps, h, by simpa using hc, fun r hr => ⟨⟨r, hr, List.infix_rfl⟩, c, List.mem_singleton_self c, ?_⟩⟩
    rw [← hc]
    exact List.infix_of_mem_flatten hr
  | @cut w c qs u hw h' ih =>
    rw [List.append_assoc] at hc
    -- `s` leaves `u`, then `r` leaves the `w` that the second removal takes out, and `r'` leaves the rest.
    obtain ⟨s, s', ps₁, ps', rfl, hs, hs', rfl, hrest, hin⟩ := h.split hc
    obtain ⟨r, r', ps₂, ps₃, rfl, hr, hr', rfl, hlast, hin'⟩ := hs'.split hrest
    obtain ⟨rs, hrs, hflat, hall⟩ := ih hr' hlast
    refine ⟨ps₁ ++ rs, ?_, by simp [hflat], ?_⟩
    · rw [← List.append_assoc]
      exact hs.append (hL r ps₂ hr hw) hrs
    · intro p hp
      rcases List.mem_append.mp hp with hp | hp
      · exact ⟨hin p (List.mem_append_left _ hp), _, List.mem_cons_self .., List.infix_of_mem_flatten hp⟩
      · obtain ⟨⟨p', hp', hpp'⟩, q, hq, hpq⟩ := hall p hp
        obtain ⟨p'', hp'', hpp''⟩ := hin' p' (List.mem_append_right _ hp')
        obtain ⟨o, ho, hpo⟩ := hin p'' (List.mem_append_right _ hp'')
        exact ⟨⟨o, ho, hpp'.trans (hpp''.trans hpo)⟩, q, List.mem_cons_of_mem _ hq, hpq⟩

/-- What stands somewhere in what is left stands in one of the pieces or goes over a joint. -/
theorem infix_or_across {a b : Text} (h : ps.flatten = a ++ w ++ b) (hw : w ≠ []) :
    (∃ p ∈ ps, w <:+: p) ∨ Across ps a w := by
  induction ps generalizing a with
  | nil =>
    have hnil := congrArg List.length h
    have hlength := List.length_pos_iff.mpr hw
    simp only [List.flatten_nil, List.length_nil, List.length_append] at hnil
    omega
  | cons p ps ih =>
    rw [List.flatten_cons] at h
    rcases Nat.lt_or_ge a.length p.length with hlt | hge
    · rcases Nat.lt_or_ge p.length (a.length + w.length) with hover | hinside
      · exact .inr ⟨[p], ps, rfl, by simpa using hlt, by simpa using hover⟩
      · refine .inl ⟨p, List.mem_cons_self .., ?_⟩
        have hprefix : a ++ w <+: p := by
          refine List.prefix_of_prefix_length_le ⟨b, h.symm⟩ (List.prefix_append p ps.flatten) ?_
          rwa [List.length_append]
        exact (List.suffix_append a w).isInfix.trans hprefix.isInfix
    · obtain ⟨a', rfl⟩ : p <+: a := by
        refine List.prefix_of_prefix_length_le (List.prefix_append p ps.flatten) ?_ hge
        rw [h, List.append_assoc]
        exact List.prefix_append a _
      rw [List.append_assoc, List.append_assoc, List.append_cancel_left_eq, ← List.append_assoc] at h
      rcases ih h with ⟨q, hq, hwq⟩ | ⟨qs, qs', rfl, hlt, hlt'⟩
      · exact .inl ⟨q, List.mem_cons_of_mem _ hq, hwq⟩
      · refine .inr ⟨p :: qs, qs', rfl, ?_, ?_⟩
        · simpa using hlt
        · simp only [List.flatten_cons, List.length_append] at hlt' ⊢
          omega

end Leaves

section Removing

/-- Either no rest of the text has the property, or there is a longest that has. -/
theorem exists_first (P : Text → Prop) (t : Text) :
    (∀ u v, t = u ++ v → ¬P v) ∨ ∃ u v, t = u ++ v ∧ P v ∧ ∀ x y, u = x ++ y → y ≠ [] → ¬P (y ++ v) := by
  induction t with
  | nil =>
    by_cases h : P []
    · exact .inr ⟨[], [], rfl, h, fun x y hu hy => absurd (List.append_eq_nil_iff.mp hu.symm).2 hy⟩
    · refine .inl fun u v ht => ?_
      rwa [(List.append_eq_nil_iff.mp ht.symm).2]
  | cons c t ih =>
    by_cases h : P (c :: t)
    · exact .inr ⟨[], c :: t, rfl, h, fun x y hu hy => absurd (List.append_eq_nil_iff.mp hu.symm).2 hy⟩
    rcases ih with hnone | ⟨u, v, rfl, hv, hfirst⟩
    · refine .inl fun u v ht => ?_
      rcases List.cons_eq_append_iff.mp ht with ⟨-, rfl⟩ | ⟨u', -, rfl⟩
      · exact h
      · exact hnone u' v rfl
    · refine .inr ⟨c :: u, v, rfl, hv, fun x y hu hy => ?_⟩
      rcases List.cons_eq_append_iff.mp hu with ⟨-, rfl⟩ | ⟨x', -, hx⟩
      · exact h
      · exact hfirst x' y hx hy

variable {L : Text → Prop} {f : Text → Text → Text} {n : Nat}

/-- A function `f b t` of a text `t` that stands after `b` removes what is in `L`: it keeps characters up to the
first place where something in `L` begins, and there leaves out something in `L`. -/
structure Removes (L : Text → Prop) (n : Nat) (f : Text → Text → Text) : Prop where
  nil : ∀ b, f b [] = []
  kept : ∀ b u v, (∀ x y, u = x ++ y → y ≠ [] → ∀ w, L w → ¬w <+: y ++ v) → f b (u ++ v) = u ++ f (b ++ u) v
  found : ∀ b v, v.length ≤ n → (∃ w, L w ∧ w <+: v) → ∃ w v', v = w ++ v' ∧ L w ∧ f b v = f (b ++ w) v'

/-- The pieces that a removal leaves hold nothing that it removes. -/
theorem Removes.exists_leaves (hf : Removes L n f) (hL : ∀ w, L w → w ≠ []) (b : Text) {t : Text}
    (ht : t.length ≤ n) :
    ∃ ps, Leaves L t ps ∧ ps.flatten = f b t ∧ ∀ p ∈ ps, ∀ w, L w → ¬w <:+: p := by
  induction hk : t.length using Nat.strongRecOn generalizing b t with
  | _ k ih =>
    rcases exists_first (fun v => ∃ w, L w ∧ w <+: v) t with hnone | ⟨u, v, rfl, hv, hfirst⟩
    · refine ⟨[t], .whole t, ?_, ?_⟩
      · have hkept := hf.kept b t [] fun x y hx _ w hw hpre => hnone x y hx ⟨w, hw, by simpa using hpre⟩
        rw [List.append_nil, hf.nil, List.append_nil] at hkept
        rw [hkept]
        simp
      · intro p hp w hw hin
        obtain rfl := List.mem_singleton.mp hp
        obtain ⟨x, y, rfl⟩ := hin
        exact hnone x (w ++ y) (by simp) ⟨w, hw, List.prefix_append w y⟩
    · have hclean : ∀ x y, u = x ++ y → y ≠ [] → ∀ w, L w → ¬w <+: y ++ v :=
        fun x y hu hy w hw hpre => hfirst x y hu hy ⟨w, hw, hpre⟩
      rw [List.length_append] at ht
      obtain ⟨w, v', rfl, hw, hrest⟩ := hf.found (b ++ u) v (by omega) hv
      have hpos := List.length_pos_iff.mpr (hL w hw)
      simp only [List.length_append] at ht hk
      obtain ⟨ps, hps, hflat, hall⟩ := ih v'.length (by omega) (b ++ u ++ w) (by omega) rfl
      refine ⟨u :: ps, ?_, ?_, ?_⟩
      · rw [← List.append_assoc]
        exact hps.cut u hw
      · rw [hf.kept b u _ hclean, hrest, List.flatten_cons, hflat]
      · intro p hp w' hw' hin
        rcases List.mem_cons.mp hp with rfl | hp
        · obtain ⟨x, y, rfl⟩ := hin
          refine hclean x (w' ++ y) (by simp) ?_ w' hw' ?_
          · exact List.append_ne_nil_of_left_ne_nil (hL w' hw') y
          · rw [List.append_assoc]
            exact List.prefix_append w' _
        · exact hall p hp w' hw' hin

end Removing

section ReplaceAll

variable {old : Text}

theorem go_skip (new v w : Text) : replaceAll.go old new w.length (w ++ v) = replaceAll.go old new 0 v := by
  induction w with
  | nil => rfl
  | cons c w ih => exact ih

theorem removes_replaceAll (h : old ≠ []) (n : Nat) :
    Removes (· = old) n fun _ t => replaceAll.go old [] 0 t := by
  have hempty : old.isEmpty = false := by
    rwa [List.isEmpty_eq_false_iff]
  refine ⟨fun _ => rfl, fun b u v hu => ?_, fun b v _ hv => ?_⟩
  · induction u with
    | nil => rfl
    | cons c u ih =>
      have hhere := hu [] (c :: u) rfl (List.cons_ne_nil c u) old rfl
      have hstarts : startsWith old (c :: (u ++ v)) = false := by
        rw [startsWith, ← Bool.not_eq_true, List.isPrefixOf_iff_prefix]
        exact hhere
      have hrest := ih fun x y hx hy w hw => hu (c :: x) y (by rw [hx]; rfl) hy w hw
      simp only [List.cons_append, replaceAll.go, hstarts, Bool.and_false, Bool.false_eq_true, if_false, hrest]
  · obtain ⟨_, rfl, v', rfl⟩ := hv
    obtain ⟨c, w, rfl⟩ := List.exists_cons_of_ne_nil h
    refine ⟨c :: w, v', rfl, rfl, ?_⟩
    have hstarts : startsWith (c :: w) (c :: (w ++ v')) = true :=
      List.isPrefixOf_iff_prefix.mpr (List.prefix_append (c :: w) v')
    simp only [List.cons_append, replaceAll.go, hstarts, List.isEmpty_cons, Bool.not_false, Bool.and_self, if_true,
      List.nil_append, List.length_cons, Nat.add_sub_cancel, go_skip]

/-- What is left when a text is removed wherever it stands. -/
theorem exists_leaves_replaceAll (h : old ≠ []) (t : Text) :
    ∃ ps, Leaves (· = old) t ps ∧ ps.flatten = replaceAll old [] t ∧ ∀ p ∈ ps, ¬old <:+: p := by
  obtain ⟨ps, hps, hflat, hall⟩ :=
    (removes_replaceAll h t.length).exists_leaves (fun w hw => hw ▸ h) [] (Nat.le_refl t.length)
  exact ⟨ps, hps, hflat, fun p hp => hall p hp old rfl⟩

end ReplaceAll

end DraftLint.Text
