import DraftLint.Proofs.Text.Case
import DraftLint.Proofs.Text.Utf8
import Mathlib.Data.List.Basic

/-!
# Small letters of the Latin alphabet

Texts whose small form consists of ASCII letters are those that have it letter by letter.  The one exception is the
letter k, which is also the small form of the Kelvin sign.  Where only ASCII characters count, a text in small letters can
be had character by character: the sigma that ends a word is the only one for which it matters what stands around it.
-/

namespace DraftLint.Text

variable {c d : Char} {s t : Text}

/-- A small ASCII letter other than k. -/
def isPlainSmall (c : Char) : Bool :=
  CharSet.lower c && c != 'k'

theorem bounds_of_isPlainSmall (h : isPlainSmall c) : 0x61 ≤ c.toNat ∧ c.toNat ≤ 0x7A ∧ c.toNat ≠ 0x6B := by
  have hrange : 'a'.toNat = 0x61 ∧ 'z'.toNat = 0x7A := by decide
  simp only [isPlainSmall, CharSet.lower, CharSet.range, Bool.and_eq_true, decide_eq_true_eq, bne_iff_ne] at h
  refine ⟨by omega, by omega, fun hk => h.2 ?_⟩
  rw [← Char.ofNat_toNat c, hk]

theorem lowerChar_of_lt (h : c.toNat < 0x80) : lowerChar c = [c.toLower] := by
  simp only [lowerChar, if_pos h]

/-- Above ASCII, only the Kelvin sign has an ASCII character as its small form, and neither it nor the dotted capital
is one itself. -/
theorem runs_apart : ∀ r ∈ CaseTable.runs, (0x80 ≤ r.first + r.shift ∨ r.first = 0x212A ∧ r.last = 0x212A) ∧
    ((r.last : Int) + r.shift < 0x130 ∨ 0x130 < r.first + r.shift) ∧
    ((r.last : Int) + r.shift < 0x212A ∨ 0x212A < r.first + r.shift) ∧
    ((r.last : Int) + r.shift < 0xD800 ∨ 0xDFFF < r.first + r.shift ∧ (r.last : Int) + r.shift < 0x110000) := by
  decide +kernel

theorem bounds_of_small? {r : CaseTable.Run} {n m : Nat} (hr : r ∈ CaseTable.runs) (h : r.small? n = some m) :
    (Char.ofNat m).toNat = m ∧ (0x80 ≤ m ∨ n = 0x212A) ∧ m ≠ 0x130 ∧ m ≠ 0x212A := by
  have hapart := runs_apart r hr
  have hpositive := lt_of_mem_runs r hr
  obtain ⟨hn, hm⟩ := between_of_small? h
  refine ⟨Utf8.toNat_ofNat (by omega), ?_⟩
  omega

/-- The small forms above ASCII. -/
theorem lowerChar_cases (hlow : 0x80 ≤ c.toNat) (hdotted : c.toNat ≠ 0x130) :
    lowerChar c = [c] ∨ ∃ d, lowerChar c = [d] ∧ (0x80 ≤ d.toNat ∨ c.toNat = 0x212A) ∧ d.toNat ≠ 0x130 ∧
      d.toNat ≠ 0x212A := by
  simp only [lowerChar, if_neg (Nat.not_lt.mpr hlow), beq_eq_false_iff_ne.mpr hdotted, Bool.false_eq_true, if_false]
  cases hfound : CaseTable.runs.findSome? (·.small? c.toNat) with
  | none => exact .inl rfl
  | some m =>
    obtain ⟨r, hr, hsmall⟩ := List.exists_of_findSome?_eq_some hfound
    obtain ⟨hm, hbounds⟩ := bounds_of_small? hr hsmall
    refine .inr ⟨Char.ofNat m, rfl, ?_⟩
    rwa [hm]

theorem lowerChar_of_isPlainSmall (h : ∀ d ∈ lowerChar c, isPlainSmall d) : c.toNat < 0x80 := by
  have hsign : ∀ c : Char, c.toNat ∈ [0x130, 0x212A] → ¬∀ d ∈ lowerChar c, isPlainSmall d :=
    forall_of_mem (by decide)
  rw [← Nat.not_le]
  intro hle
  by_cases hlisted : c.toNat ∈ [0x130, 0x212A]
  · exact hsign c hlisted h
  simp only [List.mem_cons, List.not_mem_nil, or_false, not_or] at hlisted
  rcases lowerChar_cases hle hlisted.1 with hc | ⟨d, hc, hlow, -⟩
  · have hbounds := bounds_of_isPlainSmall (h c (hc ▸ List.mem_singleton_self c))
    omega
  · have hbounds := bounds_of_isPlainSmall (h d (hc ▸ List.mem_singleton_self d))
    omega

/-- ASCII text has its small form letter by letter. -/
theorem lower_of_ascii (h : ∀ c ∈ t, c.toNat < 0x80) : lower t = t.map Char.toLower := by
  unfold lower
  generalize ([] : Text) = before
  induction t generalizing before with
  | nil => rfl
  | cons c t ih =>
    obtain ⟨hc, ht⟩ := List.forall_mem_cons.mp h
    have hsigma : (c.toNat == 0x3A3) = false := by
      rw [beq_eq_false_iff_ne]
      omega
    rw [lowerFrom, hsigma, if_neg Bool.false_ne_true, lowerChar_of_lt hc, ih ht]
    rfl

theorem lt_of_lowerFrom {before : Text} (h : ∀ d ∈ lowerFrom before t, isPlainSmall d) : ∀ c ∈ t, c.toNat < 0x80 := by
  induction t generalizing before with
  | nil => exact List.forall_mem_nil _
  | cons c t ih =>
    rw [lowerFrom, List.forall_mem_append] at h
    refine List.forall_mem_cons.mpr ⟨?_, ih h.2⟩
    split_ifs at h with hsigma hfinal
    · exact absurd (h.1 _ (List.mem_singleton_self _)) (by decide)
    · exact absurd (h.1 _ (List.mem_singleton_self _)) (by decide)
    · exact lowerChar_of_isPlainSmall h.1

theorem lt_of_toLower_lt (h : c.toLower.toNat < 0x80) : c.toNat < 0x80 := by
  rcases toLower_eq_or_capital c with hc | hc
  · rwa [hc] at h
  · omega

/-- A text has plain small letters as its small form exactly if it has them letter by letter. -/
theorem lower_eq_iff (hs : ∀ c ∈ s, isPlainSmall c) : lower t = s ↔ t.map Char.toLower = s := by
  constructor
  · rintro rfl
    exact (lower_of_ascii (lt_of_lowerFrom hs)).symm
  · rintro rfl
    refine lower_of_ascii fun c hc => lt_of_toLower_lt ?_
    have hbounds := bounds_of_isPlainSmall (hs _ (List.mem_map_of_mem hc))
    omega

section Forms

/-- An ASCII character itself, and one sign for all others. -/
def veil (c : Char) : Char :=
  if c.toNat < 0x80 then c else Char.ofNat 0xFFFD

/-- Each character in its small form, whatever stands around it, as far as that is ASCII. -/
def smallForms (t : Text) : Text :=
  t.flatMap fun c => (lowerChar c).map veil

theorem smallForms_eq_map (t : Text) : smallForms t = (t.flatMap lowerChar).map veil :=
  List.map_flatMap.symm

theorem smallForms_append (s t : Text) : smallForms (s ++ t) = smallForms s ++ smallForms t :=
  List.flatMap_append

theorem veil_of_le (h : 0x80 ≤ c.toNat) : veil c = Char.ofNat 0xFFFD :=
  if_neg (Nat.not_lt.mpr h)

theorem veil_eq_iff (hd : d.toNat < 0x80) : veil c = d ↔ c = d := by
  unfold veil
  split_ifs with hc
  · rfl
  · refine iff_of_false ?_ ?_
    · rintro rfl
      exact absurd hd (by decide)
    · rintro rfl
      exact hc hd

/-- Texts in ASCII are told from all others. -/
theorem map_veil_eq_iff (hs : ∀ c ∈ s, c.toNat < 0x80) : t.map veil = s ↔ t = s := by
  induction s generalizing t with
  | nil => rw [List.map_eq_nil_iff]
  | cons d s ih =>
    obtain ⟨hd, hs⟩ := List.forall_mem_cons.mp hs
    cases t with
    | nil => exact iff_of_false (List.cons_ne_nil d s).symm (List.cons_ne_nil d s).symm
    | cons c t => rw [List.map_cons, List.cons.injEq, List.cons.injEq, veil_eq_iff hd, ih hs]

theorem suffix_map_veil_iff (hs : ∀ c ∈ s, c.toNat < 0x80) : s <:+ t.map veil ↔ s <:+ t := by
  constructor
  · rintro ⟨front, h⟩
    obtain ⟨u, v, rfl, -, hv⟩ := List.map_eq_append_iff.mp h.symm
    rw [(map_veil_eq_iff hs).mp hv]
    exact List.suffix_append u s
  · rintro ⟨front, rfl⟩
    rw [List.map_append, (map_veil_eq_iff hs).mpr rfl]
    exact List.suffix_append _ s

theorem map_veil_lowerFrom (before t : Text) : (lowerFrom before t).map veil = smallForms t := by
  induction t generalizing before with
  | nil => rfl
  | cons c t ih =>
    have hcons : smallForms (c :: t) = (lowerChar c).map veil ++ smallForms t := List.flatMap_cons
    rw [lowerFrom, List.map_append, ih, hcons, List.append_cancel_right_eq]
    by_cases hsigma : c.toNat = 0x3A3
    · have hforms : [Char.ofNat 0x3C2].map veil = (lowerChar (Char.ofNat 0x3A3)).map veil ∧
          [Char.ofNat 0x3C3].map veil = (lowerChar (Char.ofNat 0x3A3)).map veil := by
        decide
      rw [← Char.ofNat_toNat c, hsigma, if_pos (by decide)]
      split_ifs
      · exact hforms.1
      · exact hforms.2
    · rw [if_neg (by simpa using hsigma)]

theorem map_veil_lower (t : Text) : (lower t).map veil = smallForms t :=
  map_veil_lowerFrom [] t

theorem veil_lowerChar_of_le (hlow : 0x80 ≤ c.toNat) (hdotted : c.toNat ≠ 0x130) (hkelvin : c.toNat ≠ 0x212A) :
    (lowerChar c).map veil = [veil c] := by
  rcases lowerChar_cases hlow hdotted with hc | ⟨d, hc, hd, -⟩
  · rw [hc]
    rfl
  · rw [hc, List.map_singleton, veil_of_le (hd.resolve_right hkelvin), veil_of_le hlow]

theorem veil_lowerChar_of_mem (h : d ∈ lowerChar c) : (lowerChar d).map veil = [veil d] := by
  have hascii : ∀ c : Char, c.toNat < 0x80 → (lowerChar c.toLower).map veil = [veil c.toLower] :=
    forall_of_lt (by decide)
  have hsign : ∀ c : Char, c.toNat ∈ [0x130, 0x212A] → ∀ d ∈ lowerChar c, (lowerChar d).map veil = [veil d] :=
    forall_of_mem (by decide)
  by_cases hlt : c.toNat < 0x80
  · rw [lowerChar_of_lt hlt, List.mem_singleton] at h
    rw [h]
    exact hascii c hlt
  by_cases hlisted : c.toNat ∈ [0x130, 0x212A]
  · exact hsign c hlisted d h
  simp only [List.mem_cons, List.not_mem_nil, or_false, not_or] at hlisted
  rcases lowerChar_cases (Nat.not_lt.mp hlt) hlisted.1 with hc | ⟨e, hc, hlow, hdotted, hkelvin⟩
  · rw [hc, List.mem_singleton] at h
    rw [h]
    exact veil_lowerChar_of_le (Nat.not_lt.mp hlt) hlisted.1 hlisted.2
  · rw [hc, List.mem_singleton] at h
    rw [h]
    exact veil_lowerChar_of_le (hlow.resolve_right hlisted.2) hdotted hkelvin

theorem veil_lowerChar_of_mem_lowerFrom {before : Text} (h : d ∈ lowerFrom before t) :
    (lowerChar d).map veil = [veil d] := by
  obtain ⟨c, -, hsmall | ⟨-, hsigma⟩⟩ := mem_lowerFrom h
  · exact veil_lowerChar_of_mem hsmall
  · exact forall_of_mem (p := fun d => (lowerChar d).map veil = [veil d]) (by decide) d hsigma

/-- A text in small letters is left as it is. -/
theorem smallForms_lower (t : Text) : smallForms (lower t) = smallForms t := by
  rw [← map_veil_lower t, smallForms, List.map_eq_flatMap]
  exact List.flatMap_congr fun d hd => veil_lowerChar_of_mem_lowerFrom hd

end Forms

end DraftLint.Text
