import DraftLint.Proofs.Text.Numeral
import Mathlib.Data.List.DropRight
import Mathlib.Data.List.TakeWhile

/-!
# Words

Words are read from the front, and blanks at the end make no difference to them.  Trimming takes nothing
but blanks away.
-/

namespace DraftLint.Text

section Words

variable {c d : Char} {t word : Text} {rest : List Text}

theorem words_of_isBlank (hc : isBlank c) : words (c :: t) = words t :=
  (words.eq_def (c :: t)).trans (if_pos hc)

theorem words_before_blank (hc : isBlank c = false) (hd : isBlank d) :
    words (c :: d :: t) = [c] :: words t := by
  rw [words.eq_def]
  simp [hc, hd, words_of_isBlank]

theorem words_in_word (hc : isBlank c = false) (hd : isBlank d = false)
    (hw : words (d :: t) = word :: rest) : words (c :: d :: t) = (c :: word) :: rest := by
  rw [words.eq_def]
  simp [hc, hd, hw]

end Words

theorem words_ne_nil {t : Text} (h : ∃ c ∈ t, isBlank c = false) : words t ≠ [] := by
  induction t with
  | nil => simp at h
  | cons c t ih =>
    obtain ⟨d, hd, hb⟩ := h
    unfold words
    by_cases hc : isBlank c = true
    · rw [if_pos hc]
      rcases List.mem_cons.mp hd with rfl | hd
      · rw [hc] at hb
        cases hb
      · exact ih ⟨d, hd, hb⟩
    · rw [if_neg hc]
      cases t with
      | nil => simp
      | cons e t =>
        by_cases he : isBlank e = true
        · simp [he]
        · simp only [he, Bool.false_eq_true, if_false]
          split <;> simp

/-- A trimmed text does not end in a blank. -/
theorem not_isBlank_of_trim_eq {t u : Text} {c : Char} (h : trim t = u ++ [c]) : isBlank c = false := by
  unfold trim trimRight dropRightWhile at h
  have hrev : (trimLeft t).reverse.dropWhile isBlank = c :: u.reverse := by
    rw [← List.reverse_reverse ((trimLeft t).reverse.dropWhile isBlank), h]
    simp
  have hhead := List.head?_dropWhile_not isBlank (trimLeft t).reverse
  rw [hrev] at hhead
  exact hhead

theorem not_isBlank_of_isDigit {c : Char} (h : c.isDigit) : isBlank c = false := by
  simp only [Char.isDigit, Bool.and_eq_true, decide_eq_true_eq, ge_iff_le, UInt32.le_iff_toNat_le] at h
  have hlo : 48 ≤ c.toNat := h.1
  have hhi : c.toNat ≤ 57 := h.2
  simp only [isBlank, Bool.or_eq_false_iff, Bool.and_eq_false_iff, decide_eq_false_iff_not,
    beq_eq_false_iff_ne]
  omega

theorem exists_not_isBlank_ofNat (n : Nat) : ∃ c ∈ ofNat n, isBlank c = false := by
  have hne : ofNat n ≠ [] := Nat.toDigits_ne_nil
  obtain ⟨c, hc⟩ := List.exists_mem_of_ne_nil _ hne
  exact ⟨c, hc, not_isBlank_of_isDigit (Nat.isDigit_of_mem_toDigits (by decide) (by decide) hc)⟩

theorem exists_not_isBlank_ofInt (n : Int) : ∃ c ∈ ofInt n, isBlank c = false := by
  cases n with
  | ofNat n => exact exists_not_isBlank_ofNat n
  | negSucc n => exact ⟨'-', by simp [ofInt], by decide⟩

section Blanks

variable {c : Char} {t u bs : Text}

theorem words_of_all_blank (h : ∀ c ∈ bs, isBlank c) : words bs = [] := by
  induction bs with
  | nil => rfl
  | cons c bs ih =>
    rw [words_of_isBlank (h c (List.mem_cons_self ..))]
    exact ih fun d hd => h d (List.mem_cons_of_mem _ hd)

/-- A word ends at the first blank or with the text. -/
theorem words_append (hne : u ≠ []) (hu : ∀ c ∈ u, isBlank c = false) (ht : ∀ c ∈ t.head?, isBlank c) :
    words (u ++ t) = u :: words t := by
  induction u with
  | nil => exact absurd rfl hne
  | cons d u ih =>
    have hd := hu d (List.mem_cons_self ..)
    cases u with
    | nil =>
      cases t with
      | nil =>
        change words [d] = [[d]]
        rw [words.eq_def]
        simp [hd]
      | cons b t =>
        have hb : isBlank b := ht b rfl
        rw [words_of_isBlank hb]
        exact words_before_blank hd hb
    | cons e u =>
      have he := hu e (List.mem_cons_of_mem _ (List.mem_cons_self ..))
      exact words_in_word hd he (ih (by simp) fun x hx => hu x (List.mem_cons_of_mem _ hx))

theorem words_append_cons (hne : u ≠ []) (hu : ∀ c ∈ u, isBlank c = false) (hc : isBlank c) :
    words (u ++ c :: t) = u :: words t := by
  have hhead : ∀ d ∈ (c :: t).head?, isBlank d := by
    intro d hd
    obtain rfl := Option.some.inj hd
    exact hc
  rw [words_append hne hu hhead, words_of_isBlank hc]

/-- The first word of the label of an RFC. -/
theorem words_rfc (t : Text) : words ("RFC ".toList ++ t) = "RFC".toList :: words t := by
  have hword : ∀ c ∈ "RFC".toList, isBlank c = false := by
    have hall : ("RFC".toList.all fun c => !isBlank c) = true := by decide
    simpa using hall
  exact words_append_cons (u := "RFC".toList) (c := ' ') (by decide) hword (by decide)

/-- A single word, perhaps with blanks after it. -/
theorem words_append_blanks (hne : u ≠ []) (hu : ∀ c ∈ u, isBlank c = false) (hb : ∀ c ∈ bs, isBlank c) :
    words (u ++ bs) = [u] := by
  rw [words_append hne hu fun c hc => hb c (List.mem_of_head? hc), words_of_all_blank hb]

theorem words_eq_singleton (hne : u ≠ []) (hu : ∀ c ∈ u, isBlank c = false) : words u = [u] := by
  have hone : words (u ++ []) = [u] := words_append_blanks hne hu (List.forall_mem_nil _)
  rwa [List.append_nil] at hone

/-- Nothing but blanks is taken from the end. -/
theorem exists_blanks_trimRight (t : Text) : ∃ bs, (∀ b ∈ bs, isBlank b) ∧ t = trimRight t ++ bs := by
  refine ⟨t.rtakeWhile isBlank, ?_, ?_⟩
  · intro b hb
    exact List.mem_rtakeWhile_imp hb
  · exact List.rdropWhile_append_rtakeWhile.symm

/-- A trimmed text stood between blanks. -/
theorem exists_blanks_around (t : Text) :
    ∃ bs bs', (∀ b ∈ bs, isBlank b) ∧ (∀ b ∈ bs', isBlank b) ∧ t = bs ++ (trim t ++ bs') := by
  obtain ⟨bs', hbs', hright⟩ := exists_blanks_trimRight (trimLeft t)
  refine ⟨t.takeWhile isBlank, bs', fun b hb => List.mem_takeWhile_imp hb, hbs', ?_⟩
  rw [trim, ← hright, trimLeft, List.takeWhile_append_dropWhile]

/-- The end is trimmed up to the last character that is not blank. -/
theorem trimRight_append_cons (hc : isBlank c = false) (hb : ∀ b ∈ bs, isBlank b) (t : Text) :
    trimRight (t ++ c :: bs) = t ++ [c] := by
  have hreverse : (t ++ c :: bs).reverse = bs.reverse ++ c :: t.reverse := by
    simp
  have hblanks : ∀ b ∈ bs.reverse, isBlank b := by
    intro b hb'
    exact hb b (List.mem_reverse.mp hb')
  rw [trimRight, dropRightWhile, hreverse, List.dropWhile_append_of_pos hblanks,
    List.dropWhile_cons_of_neg (by rw [hc]; exact Bool.false_ne_true)]
  simp

/-- A text that does not begin with a blank is trimmed at its end only. -/
theorem exists_blanks_trim (hc : isBlank c = false) (t : Text) :
    ∃ bs, (∀ b ∈ bs, isBlank b) ∧ c :: t = trim (c :: t) ++ bs := by
  have hleft : trimLeft (c :: t) = c :: t := by
    rw [trimLeft, List.dropWhile_cons_of_neg (by rw [hc]; exact Bool.false_ne_true)]
  rw [trim, hleft]
  exact exists_blanks_trimRight (c :: t)

theorem trim_eq_self (h : ∀ c ∈ t, isBlank c = false) : trim t = t := by
  rw [trim, trimLeft, dropWhile_eq_self h, trimRight, dropRightWhile_eq_self h]

/-- A text with no blank at either end is trimmed already. -/
theorem trim_eq_self_of_ends (hfirst : ∀ c ∈ t.head?, isBlank c = false)
    (hlast : ∀ c ∈ t.getLast?, isBlank c = false) : trim t = t := by
  have hdrop : ∀ {u : Text}, (∀ c ∈ u.head?, isBlank c = false) → u.dropWhile isBlank = u := by
    intro u hu
    cases u with
    | nil => rfl
    | cons c u => rw [List.dropWhile_cons_of_neg (by rw [hu c rfl]; exact Bool.false_ne_true)]
  rw [trim, trimLeft, hdrop hfirst, trimRight, dropRightWhile, hdrop (by rwa [List.head?_reverse]),
    List.reverse_reverse]

theorem head_of_trim_eq (h : trim t = t) : ∀ c ∈ t.head?, isBlank c = false := by
  intro c hc
  cases t with
  | nil => cases hc
  | cons d t =>
    obtain rfl := Option.some.inj hc
    rw [Bool.eq_false_iff]
    intro hblank
    have hdrop : trimLeft (d :: t) = trimLeft t := List.dropWhile_cons_of_pos hblank
    have hle : (trim (d :: t)).length ≤ t.length := by
      rw [trim, hdrop]
      exact ((List.rdropWhile_prefix _ _).sublist.trans (List.dropWhile_sublist _)).length_le
    rw [h, List.length_cons] at hle
    omega

theorem last_of_trim_eq (h : trim t = t) : ∀ c ∈ t.getLast?, isBlank c = false := by
  intro c hc
  obtain ⟨u, hu⟩ := List.getLast?_eq_some_iff.mp hc
  exact not_isBlank_of_trim_eq (h.trans hu)

/-- What is trimmed once stays as it is. -/
theorem trim_trim (t : Text) : trim (trim t) = trim t := by
  refine trim_eq_self_of_ends (fun c hc => ?_) (fun c hc => ?_)
  · have hprefix : trim t <+: trimLeft t := List.rdropWhile_prefix isBlank (trimLeft t)
    obtain ⟨rest, hrest⟩ := List.head?_eq_some_iff.mp hc
    obtain ⟨more, hmore⟩ := hprefix
    have hhead := List.head?_dropWhile_not isBlank t
    rw [← trimLeft, ← hmore, hrest] at hhead
    exact hhead
  · obtain ⟨u, hu⟩ := List.getLast?_eq_some_iff.mp hc
    exact not_isBlank_of_trim_eq hu

/-- Whatever is not blank survives trimming. -/
theorem mem_trim (h : c ∈ t) (hc : isBlank c = false) : c ∈ trim t := by
  have hleft : c ∈ trimLeft t := by
    rw [← List.takeWhile_append_dropWhile (p := isBlank) (l := t)] at h
    rcases List.mem_append.mp h with h | h
    · rw [List.mem_takeWhile_imp h] at hc
      cases hc
    · exact h
  obtain ⟨bs, hbs, ht⟩ := exists_blanks_trimRight (trimLeft t)
  rw [ht] at hleft
  rcases List.mem_append.mp hleft with hleft | hleft
  · exact hleft
  · rw [hbs c hleft] at hc
    cases hc

/-- A text with no blank at either end is left where it is, whatever stands around it. -/
theorem trim_append_append {s : Text} (hne : s ≠ []) (hfirst : ∀ c ∈ s.head?, isBlank c = false)
    (hlast : ∀ c ∈ s.getLast?, isBlank c = false) (u v : Text) :
    trim (u ++ s ++ v) = trimLeft u ++ s ++ trimRight v := by
  have hleft : ∀ {s : Text}, s ≠ [] → (∀ c ∈ s.head?, isBlank c = false) → ∀ u w : Text,
      trimLeft (u ++ (s ++ w)) = trimLeft u ++ (s ++ w) := by
    intro s hne hs u w
    obtain ⟨c, s, rfl⟩ := List.exists_cons_of_ne_nil hne
    have hc := hs c rfl
    rw [trimLeft, trimLeft, List.dropWhile_append]
    split_ifs with hnil
    · rw [List.isEmpty_iff.mp hnil, List.cons_append, List.dropWhile_cons_of_neg (by simp [hc])]
      rfl
    · rfl
  have hreverse : ∀ t : Text, trimRight t = (trimLeft t.reverse).reverse := fun _ => rfl
  have hright := hleft (s := s.reverse) (List.reverse_ne_nil_iff.mpr hne) (by rwa [List.head?_reverse]) v.reverse
    (trimLeft u).reverse
  rw [trim, List.append_assoc, hleft hne hfirst, hreverse, List.reverse_append, List.reverse_append, List.append_assoc,
    hright, hreverse v]
  simp

/-- A text without blanks at the start of another ends before the first blank. -/
theorem prefix_of_append_eq {s t v w : Text} (ht : ∀ c ∈ t, isBlank c = false) (hv : ∀ c ∈ v.head?, isBlank c)
    (h : s ++ v = t ++ w) : t <+: s := by
  rcases List.append_eq_append_iff.mp h with ⟨x, rfl, hx⟩ | ⟨x, rfl, -⟩
  · cases x with
    | nil => exact ⟨[], by rw [List.append_nil, List.append_nil]⟩
    | cons c x =>
      have hblank := hv c (by rw [hx]; rfl)
      rw [ht c (List.mem_append_right s List.mem_cons_self)] at hblank
      cases hblank
  · exact List.prefix_append t x

end Blanks

theorem subset_of_contains {part t : Text} (h : contains part t) : part ⊆ t := by
  induction t with
  | nil =>
    rw [contains, List.isEmpty_iff] at h
    exact h ▸ List.Subset.refl _
  | cons c t ih =>
    rw [contains, Bool.or_eq_true] at h
    rcases h with h | h
    · exact (List.isPrefixOf_iff_prefix.mp h).subset
    · exact List.Subset.trans (ih h) (List.subset_cons_self c t)

end DraftLint.Text
