import DraftLint.Proofs.DraftName
import DraftLint.Proofs.Registry
import DraftLint.Proofs.Text.Pieces
import DraftLint.Proofs.Text.SmallLetters

/-!
# Spellings of the name of a draft

A label spells the name of a draft in its short form, in its long form, or as it is, perhaps with a revision.
Every spelling gives the name, which no normalization changes.  Only the short form of one name with a revision
is taken for the long form of something else.
-/

namespace DraftLint

namespace Text

/-- A text without capitals is one in small letters already. -/
theorem lower_eq_self {t : Text} (h : ∀ c ∈ t, c.toNat < 0x80 ∧ c.toLower = c) : lower t = t := by
  rw [lower_of_ascii fun c hc => (h c hc).1]
  exact (List.map_congr_left fun c hc => (h c hc).2).trans (List.map_id t)

end Text

namespace Citation

open Pattern

section Names

/-- What the name of a draft consists of. -/
def nameChar : CharSet :=
  .or .lower (.or .digit (.only '-'))

/-- The name of a draft after the word, which has no version at its end. -/
structure IsName (x : Text) : Prop where
  ne_nil : x ≠ []
  nameChar : ∀ c ∈ x, nameChar c
  not_startsWith : Text.startsWith "draft-".toList x = false
  not_versioned : ∀ u v, "draft-".toList ++ x = u ++ v → isVersion v = false

theorem isName_iff {x : Text} : IsName x ↔ x ≠ [] ∧ x.all nameChar ∧
    Text.startsWith "draft-".toList x = false ∧ unversioned ("draft-".toList ++ x) = "draft-".toList ++ x := by
  rw [unversioned_eq_self_iff, List.all_eq_true]
  exact ⟨fun h => ⟨h.1, h.2, h.3, h.4⟩, fun h => ⟨h.1, h.2.1, h.2.2.1, h.2.2.2⟩⟩

instance (x : Text) : Decidable (IsName x) :=
  decidable_of_iff _ isName_iff.symm

/-- A hyphen and two plain digits, or nothing. -/
def IsRevision (v : Text) : Prop :=
  v = [] ∨ ∃ c d, v = ['-', c, d] ∧ CharSet.digit c ∧ CharSet.digit d

variable {c : Char} {x v label : Text}

theorem lt_of_nameChar (h : nameChar c) : c.toNat < 0x80 := by
  have hrange : 'z'.toNat = 0x7A ∧ '9'.toNat = 0x39 ∧ '-'.toNat = 0x2D := by decide
  simp only [nameChar, CharSet.or, CharSet.lower, CharSet.digit, CharSet.range, CharSet.only, Bool.or_eq_true,
    Bool.and_eq_true, decide_eq_true_eq, beq_iff_eq] at h
  rcases h with h | h | rfl <;> omega

/-- What is true of the ASCII characters in a name is true of all of them. -/
theorem forall_nameChar {p : Char → Prop} (hp : ∀ n < 0x80, nameChar (Char.ofNat n) → p (Char.ofNat n))
    (h : nameChar c) : p c :=
  Text.forall_of_lt (p := fun c => nameChar c → p c) hp c (lt_of_nameChar h) h

theorem labelChar_of_nameChar (h : nameChar c) : labelChar c :=
  forall_nameChar (p := fun c => labelChar c) (by decide) h

theorem toLower_of_nameChar (h : nameChar c) : c.toLower = c :=
  forall_nameChar (p := fun c => c.toLower = c) (by decide) h

theorem not_isBlank_of_nameChar (h : nameChar c) : Text.isBlank c = false :=
  (apart_of_labelChar (labelChar_of_nameChar h)).1

theorem nameChar_draft : ∀ c ∈ "draft-".toList, nameChar c :=
  List.all_eq_true.mp (by decide)

theorem IsRevision.nameChar (h : IsRevision v) : ∀ c ∈ v, nameChar c := by
  rcases h with rfl | ⟨c, d, rfl, hc, hd⟩
  · exact List.forall_mem_nil _
  · simp only [List.forall_mem_cons, Citation.nameChar, CharSet.or, hc, hd, Bool.or_true, Bool.true_or]
    exact ⟨by decide, trivial, trivial, List.forall_mem_nil _⟩

theorem IsRevision.isVersion (h : IsRevision v) (hv : v ≠ []) : isVersion v := by
  obtain ⟨c, d, rfl, hc, hd⟩ := h.resolve_left hv
  have hdecimal : ∀ {c}, CharSet.digit c → Text.isDecimal c := fun hc =>
    Text.isDecimal_of_digit_ignoreCase (Text.ignoreCase_of_mem hc)
  simp only [Citation.isVersion, Bool.and_eq_true]
  exact ⟨⟨rfl, hdecimal hc⟩, hdecimal hd⟩

theorem IsRevision.length_eq (h : IsRevision v) (hv : v ≠ []) : v.length = 3 :=
  length_of_isVersion (h.isVersion hv)

/-- A revision is left out of the name, and nothing else is. -/
theorem IsName.unversioned_append (hx : IsName x) (hv : IsRevision v) :
    unversioned ("draft-".toList ++ (x ++ v)) = "draft-".toList ++ x := by
  by_cases hne : v = []
  · rw [hne, List.append_nil]
    exact unversioned_eq_self_iff.mpr hx.not_versioned
  · rw [← List.append_assoc]
    exact Citation.unversioned_append (hv.isVersion hne)

end Names

section Spelling

/-- The label spells the name.  The short form of `draft` with a revision is read as a long form, so it is none
of its spellings. -/
inductive Spells (x : Text) : Text → Prop
  | short {v : Text} (hv : IsRevision v) (h : v = [] ∨ x ≠ "draft".toList) : Spells x ("I-D.".toList ++ (x ++ v))
  | long {v : Text} (hv : IsRevision v) : Spells x ("I-D.draft-".toList ++ (x ++ v))
  | plain {v : Text} (hv : IsRevision v) : Spells x ("draft-".toList ++ (x ++ v))

variable {x v label : Text}

theorem IsName.nameChar_long (hx : IsName x) : ∀ c ∈ "draft-".toList ++ x, Citation.nameChar c :=
  List.forall_mem_append.mpr ⟨nameChar_draft, hx.nameChar⟩

theorem IsName.lower_eq (hx : IsName x) : Text.lower ("draft-".toList ++ x) = "draft-".toList ++ x :=
  Text.lower_eq_self fun c hc => ⟨lt_of_nameChar (hx.nameChar_long c hc), toLower_of_nameChar (hx.nameChar_long c hc)⟩

/-- Normalization leaves the name as it is. -/
theorem IsName.normalize_eq (hx : IsName x) :
    Registry.normalize ("draft-".toList ++ x) = .ok ("draft-".toList ++ x) := by
  have hd : 'd' ∈ "draft-".toList ++ x := List.mem_append_left x (by decide)
  rw [Registry.normalize_of_mem (.inl hd),
    Text.trim_eq_self fun c hc => not_isBlank_of_nameChar (hx.nameChar_long c hc), hx.lower_eq]

end Spelling

end Citation
end DraftLint
