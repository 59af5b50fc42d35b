import DraftLint.Proofs.Pattern.Preference

/-!
# Patterns that do not look around

Without conditions on positions it makes no difference to a match what stands around it.  Such a pattern occurs in a
text if it fits a piece of it.
-/

namespace DraftLint.Pattern

/-- Nothing is asked of the text around. -/
def Free : Pattern → Prop
  | seq p q | alt p q => p.Free ∧ q.Free
  | many p | few p | group _ p => p.Free
  | empty | one _ => True
  | anchor _ | ahead _ | notAhead _ => False

variable {p : Pattern} {r r' : Reach} {s t w x : Text}

theorem Accepts.manyMore (hp : p.Accepts w) (hmany : (many p).Accepts x) : (many p).Accepts (w ++ x) := by
  intro u v captures
  obtain ⟨captures', hw⟩ := hp u (x ++ v) captures
  obtain ⟨captures'', hx⟩ := hmany (u ++ w) v captures'
  rw [List.append_assoc, ← List.append_assoc u]
  exact ⟨captures'', hw.manyMore hx⟩

theorem Accepts.fewMore (hp : p.Accepts w) (hfew : (few p).Accepts x) : (few p).Accepts (w ++ x) := by
  intro u v captures
  obtain ⟨captures', hw⟩ := hp u (x ++ v) captures
  obtain ⟨captures'', hx⟩ := hfew (u ++ w) v captures'
  rw [List.append_assoc, ← List.append_assoc u]
  exact ⟨captures'', hw.fewMore hx⟩

/-- Nothing is read in the same way everywhere by what can read nothing. -/
theorem accepts_nil (h : ∀ r, Reads p r [] r) : p.Accepts [] := by
  intro u v captures
  rw [List.append_nil]
  exact ⟨captures, h _⟩

theorem accepts_many_flatten {ws : List Text} (h : ∀ w ∈ ws, p.Accepts w) : (many p).Accepts ws.flatten := by
  induction ws with
  | nil => exact accepts_nil (.manyDone p)
  | cons w ws ih =>
    obtain ⟨hw, hws⟩ := List.forall_mem_cons.mp h
    exact hw.manyMore (ih hws)

/-- What is read once is read wherever it stands. -/
theorem Reads.accepts (h : Reads p r t r') (hp : p.Free) : p.Accepts t := by
  induction h with
  | empty r => exact accepts_nil .empty
  | one before rest pos captures hs => exact fun u v captures => ⟨captures, Reads.one_amid hs u v captures⟩
  | seq h h' ih ih' => exact (ih hp.1).seq (ih' hp.2)
  | left h ih => exact (ih hp.1).left
  | right h ih => exact (ih hp.2).right
  | group h ih => exact (ih hp).group _
  | manyDone p r => exact accepts_nil (.manyDone p)
  | fewDone p r => exact accepts_nil (.fewDone p)
  | manyMore h h' ih ih' => exact (ih hp).manyMore (ih' hp)
  | fewMore h h' ih ih' => exact (ih hp).fewMore (ih' hp)
  | anchor h => exact hp.elim
  | ahead h => exact hp.elim
  | notAhead p r => exact hp.elim

theorem fits_iff_accepts (hfree : p.Free) (hdirect : p.Direct) : p.fits t ↔ p.Accepts t := by
  constructor
  · intro h
    obtain ⟨m, hm⟩ := Option.isSome_iff_exists.mp h
    obtain ⟨w, hread⟩ := reads_of_match? hm
    have hrest : t = w ++ m.stop.rest := hread.advance.1
    obtain ⟨w, _, _, rfl, hread, hend⟩ := hread.of_seq
    cases hend with
    | anchor hend =>
      rw [List.append_nil, List.isEmpty_iff.mp hend, List.append_nil] at hrest
      rw [hrest]
      exact hread.accepts hfree
  · intro h
    obtain ⟨captures, hread⟩ := h [] [] []
    rw [List.append_nil] at hread
    have hend : Reads (.anchor .textEnd) ⟨.amid ([] ++ t) [], captures⟩ [] ⟨.amid ([] ++ t) [], captures⟩ := .anchor rfl
    exact isSome_match? (hread.seq hend) ⟨hdirect, trivial⟩

/-- The pattern occurs in a text if it fits a piece of it. -/
theorem occursIn_iff_fits (hfree : p.Free) (hdirect : p.Direct) : p.occursIn t ↔ ∃ w, w <:+: t ∧ p.fits w := by
  rw [occursIn_iff]
  constructor
  · rintro ⟨u, v, rfl, hmatch⟩
    obtain ⟨m, hm⟩ := Option.isSome_iff_exists.mp hmatch
    obtain ⟨w, hread⟩ := reads_of_matchAt hm
    refine ⟨w, ⟨u, m.stop.rest, ?_⟩, (fits_iff_accepts hfree hdirect).mpr (hread.accepts hfree)⟩
    rw [List.append_assoc]
    exact congrArg (u ++ ·) hread.advance.1.symm
  · rintro ⟨w, ⟨u, v, rfl⟩, hfits⟩
    refine ⟨u, w ++ v, List.append_assoc u w v, ?_⟩
    refine ((fits_iff_accepts hfree hdirect).mp hfits).isSome_matchAt hdirect ?_
    simp only [List.length_append]
    omega

/-- In two texts with a character between, the pattern occurs in one of them or reaches over the character. -/
theorem occursIn_append_cons (hfree : p.Free) (hdirect : p.Direct) (s : Text) (c : Char) (t : Text) :
    p.occursIn (s ++ c :: t) ↔ p.occursIn s ∨ p.occursIn t ∨ ∃ x y, x <:+ s ∧ y <+: t ∧ p.fits (x ++ c :: y) := by
  simp only [occursIn_iff_fits hfree hdirect]
  constructor
  · rintro ⟨w, ⟨u, v, huv⟩, hfits⟩
    rcases List.append_eq_append_iff.mp huv with ⟨a, rfl, -⟩ | ⟨a, hbehind, hct⟩
    · exact .inl ⟨w, ⟨u, a, rfl⟩, hfits⟩
    · cases a with
      | nil => exact .inl ⟨w, ⟨u, [], by rw [hbehind, List.append_nil, List.append_nil]⟩, hfits⟩
      | cons d a =>
        obtain ⟨rfl, rfl⟩ := List.cons.inj hct
        rcases List.append_eq_append_iff.mp hbehind with ⟨b, rfl, rfl⟩ | ⟨b, rfl, hb⟩
        · exact .inr (.inr ⟨b, a, List.suffix_append u b, List.prefix_append a v, hfits⟩)
        · cases b with
          | nil =>
            obtain rfl : c :: a = w := hb
            exact .inr (.inr ⟨[], a, List.nil_suffix, List.prefix_append a v, hfits⟩)
          | cons d b =>
            obtain ⟨rfl, rfl⟩ := List.cons.inj hb
            exact .inr (.inl ⟨w, ⟨b, v, rfl⟩, hfits⟩)
  · rintro (⟨w, hw, hfits⟩ | ⟨w, hw, hfits⟩ | ⟨x, y, ⟨u, rfl⟩, ⟨v, rfl⟩, hfits⟩)
    · exact ⟨w, hw.trans (List.prefix_append s (c :: t)).isInfix, hfits⟩
    · exact ⟨w, hw.trans ((List.suffix_cons c t).trans (List.suffix_append s (c :: t))).isInfix, hfits⟩
    · exact ⟨_, ⟨u, v, by simp⟩, hfits⟩

end DraftLint.Pattern
