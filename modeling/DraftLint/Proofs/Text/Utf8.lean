import DraftLint.Text.Utf8
import Mathlib.Data.List.Count
import Mathlib.Tactic.SplitIfs

/-!
# Decoding UTF-8

Octets are decoded exactly if they are those of a text.  If they are not, decoding stops behind the longest text that they
begin with, where they go on as no character does.
-/

namespace DraftLint.Utf8

open String (utf8EncodeChar)

variable {b : UInt8} {bs tail : Octets} {c : Char} {lo hi lead n v : Nat} {t : Text}

section First

theorem follow?_eq_some_iff : follow? lo hi b = some v ↔ (lo ≤ b.toNat ∧ b.toNat ≤ hi) ∧ v = b.toNat - 0x80 := by
  rw [follow?]
  split_ifs with h <;> rw [Bool.and_eq_true, decide_eq_true_eq, decide_eq_true_eq] at h
  · rw [Option.some_inj, and_iff_right h, eq_comm]
  · exact iff_of_false nofun fun hv => h hv.1

theorem head?_eq_some_iff : head? lo hi bs = some (v, tail) ↔
    ∃ b, bs = b :: tail ∧ (lo ≤ b.toNat ∧ b.toNat ≤ hi) ∧ v = b.toNat - 0x80 := by
  cases bs with
  | nil => exact iff_of_false nofun fun ⟨b, hb, _⟩ => List.cons_ne_nil b tail hb.symm
  | cons b bs =>
    simp only [head?, Option.map_eq_some_iff, follow?_eq_some_iff, Prod.mk.injEq, List.cons.injEq]
    constructor
    · rintro ⟨w, h, rfl, rfl⟩
      exact ⟨b, ⟨rfl, rfl⟩, h⟩
    · rintro ⟨x, ⟨rfl, rfl⟩, h⟩
      exact ⟨v, h, rfl, rfl⟩

theorem two_eq_char_iff : (match head? 0x80 0xBF bs with
      | none => Piece.bad 1
      | some (v, _) => .char (Char.ofNat (lead * 64 + v)) 2) = .char c n ↔ n = 2 ∧ ∃ x rest, bs = x :: rest ∧
    (0x80 ≤ x.toNat ∧ x.toNat ≤ 0xBF) ∧ c = Char.ofNat (lead * 64 + (x.toNat - 0x80)) := by
  constructor
  · intro h
    split at h
    · cases h
    · next hx =>
      obtain ⟨x, rfl, hx', hv⟩ := head?_eq_some_iff.mp hx
      cases h
      exact ⟨rfl, x, _, rfl, hx', by rw [hv]⟩
  · rintro ⟨rfl, x, rest, rfl, hx, hc⟩
    rw [head?_eq_some_iff.mpr ⟨x, rfl, hx, rfl⟩, hc]

theorem three_eq_char_iff : three lead lo hi bs = .char c n ↔ n = 3 ∧ ∃ x y rest, bs = x :: y :: rest ∧
    (lo ≤ x.toNat ∧ x.toNat ≤ hi) ∧ (0x80 ≤ y.toNat ∧ y.toNat ≤ 0xBF) ∧
    c = Char.ofNat (lead * 4096 + (x.toNat - 0x80) * 64 + (y.toNat - 0x80)) := by
  constructor
  · intro h
    rw [three] at h
    split at h
    · cases h
    · next hx =>
      split at h
      · cases h
      · next hy =>
        obtain ⟨x, rfl, hx', hv⟩ := head?_eq_some_iff.mp hx
        obtain ⟨y, rfl, hy', hw⟩ := head?_eq_some_iff.mp hy
        cases h
        exact ⟨rfl, x, y, _, rfl, hx', hy', by rw [hv, hw]⟩
  · rintro ⟨rfl, x, y, rest, rfl, hx, hy, hc⟩
    rw [three, head?_eq_some_iff.mpr ⟨x, rfl, hx, rfl⟩]
    dsimp only
    rw [head?_eq_some_iff.mpr ⟨y, rfl, hy, rfl⟩, hc]

theorem four_eq_char_iff : four lead lo hi bs = .char c n ↔ n = 4 ∧ ∃ x y z rest, bs = x :: y :: z :: rest ∧
    (lo ≤ x.toNat ∧ x.toNat ≤ hi) ∧ (0x80 ≤ y.toNat ∧ y.toNat ≤ 0xBF) ∧ (0x80 ≤ z.toNat ∧ z.toNat ≤ 0xBF) ∧
    c = Char.ofNat (lead * 262144 + (x.toNat - 0x80) * 4096 + (y.toNat - 0x80) * 64 + (z.toNat - 0x80)) := by
  constructor
  · intro h
    rw [four] at h
    split at h
    · cases h
    · next hx =>
      split at h
      · cases h
      · next hy =>
        split at h
        · cases h
        · next hz =>
          obtain ⟨x, rfl, hx', hv⟩ := head?_eq_some_iff.mp hx
          obtain ⟨y, rfl, hy', hw⟩ := head?_eq_some_iff.mp hy
          obtain ⟨z, rfl, hz', hu⟩ := head?_eq_some_iff.mp hz
          cases h
          exact ⟨rfl, x, y, z, _, rfl, hx', hy', hz', by rw [hv, hw, hu]⟩
  · rintro ⟨rfl, x, y, z, rest, rfl, hx, hy, hz, hc⟩
    rw [four, head?_eq_some_iff.mpr ⟨x, rfl, hx, rfl⟩]
    dsimp only
    rw [head?_eq_some_iff.mpr ⟨y, rfl, hy, rfl⟩]
    dsimp only
    rw [head?_eq_some_iff.mpr ⟨z, rfl, hz, rfl⟩, hc]

/-- A character is read from one octet of the ASCII range, or from a longer sequence by its first octet. -/
theorem first_eq_char_iff : first b bs = .char c n ↔
    b.toNat < 0x80 ∧ n = 1 ∧ c = Char.ofNat b.toNat ∨
    (0xC2 ≤ b.toNat ∧ b.toNat < 0xE0) ∧ n = 2 ∧ (∃ x rest, bs = x :: rest ∧ (0x80 ≤ x.toNat ∧ x.toNat ≤ 0xBF) ∧
      c = Char.ofNat ((b.toNat - 0xC0) * 64 + (x.toNat - 0x80))) ∨
    (0xE0 ≤ b.toNat ∧ b.toNat < 0xF0) ∧ three (b.toNat - 0xE0) (if b.toNat = 0xE0 then 0xA0 else 0x80)
      (if b.toNat = 0xED then 0x9F else 0xBF) bs = .char c n ∨
    (0xF0 ≤ b.toNat ∧ b.toNat < 0xF5) ∧ four (b.toNat - 0xF0) (if b.toNat = 0xF0 then 0x90 else 0x80)
      (if b.toNat = 0xF4 then 0x8F else 0xBF) bs = .char c n := by
  rw [first]
  by_cases h₁ : b.toNat < 0x80
  · rw [if_pos h₁, Piece.char.injEq]
    constructor
    · rintro ⟨rfl, rfl⟩
      exact .inl ⟨h₁, rfl, rfl⟩
    · rintro (⟨-, rfl, rfl⟩ | ⟨h, -⟩ | ⟨h, -⟩ | ⟨h, -⟩)
      · exact ⟨rfl, rfl⟩
      all_goals omega
  rw [if_neg h₁]
  by_cases h₂ : b.toNat < 0xC2
  · rw [if_pos h₂]
    refine iff_of_false nofun ?_
    rintro (⟨h, -⟩ | ⟨h, -⟩ | ⟨h, -⟩ | ⟨h, -⟩) <;> omega
  rw [if_neg h₂]
  by_cases h₃ : b.toNat < 0xE0
  · rw [if_pos h₃]
    refine ⟨fun h => .inr (.inl ⟨by omega, two_eq_char_iff.mp h⟩), ?_⟩
    rintro (⟨h, -⟩ | ⟨-, h⟩ | ⟨h, -⟩ | ⟨h, -⟩)
    · omega
    · exact two_eq_char_iff.mpr h
    · omega
    · omega
  rw [if_neg h₃]
  by_cases h₄ : b.toNat < 0xF0
  · rw [if_pos h₄]
    refine ⟨fun h => .inr (.inr (.inl ⟨by omega, h⟩)), ?_⟩
    rintro (⟨h, -⟩ | ⟨h, -⟩ | ⟨-, h⟩ | ⟨h, -⟩)
    · omega
    · omega
    · exact h
    · omega
  rw [if_neg h₄]
  by_cases h₅ : b.toNat < 0xF5
  · rw [if_pos h₅]
    refine ⟨fun h => .inr (.inr (.inr ⟨by omega, h⟩)), ?_⟩
    rintro (⟨h, -⟩ | ⟨h, -⟩ | ⟨h, -⟩ | ⟨-, h⟩)
    · omega
    · omega
    · omega
    · exact h
  · rw [if_neg h₅]
    refine iff_of_false nofun ?_
    rintro (⟨h, -⟩ | ⟨h, -⟩ | ⟨h, -⟩ | ⟨h, -⟩) <;> omega

/-- The numbers of characters are those below the surrogates and those above. -/
theorem toNat_ofNat (h : n < 0xD800 ∨ 0xDFFF < n ∧ n < 0x110000) : (Char.ofNat n).toNat = n := by
  have hvalid : n.isValidChar := h
  rw [Char.ofNat, dif_pos hvalid]
  rfl

theorem toNat_cases (c : Char) : c.toNat < 0xD800 ∨ 0xDFFF < c.toNat ∧ c.toNat < 0x110000 :=
  c.valid

/-- The octets of a character are read as it, whatever stands behind them. -/
theorem first_utf8EncodeChar (c : Char) (bs : Octets) :
    ∃ b tail, utf8EncodeChar c = b :: tail ∧ first b (tail ++ bs) = .char c (tail.length + 1) := by
  have hvalid := toNat_cases c
  have hself := Char.ofNat_toNat c
  have hoctet : ∀ k < 256, (UInt8.ofNat k).toNat = k := fun k hk => UInt8.toNat_ofNat_of_lt' hk
  unfold utf8EncodeChar
  have hval : c.val.toNat = c.toNat := rfl
  dsimp only
  split_ifs with h₁ h₂ h₃
  · refine ⟨_, [], rfl, first_eq_char_iff.mpr (.inl ?_)⟩
    rw [hoctet _ (by omega)]
    exact ⟨by omega, rfl, hself.symm⟩
  · refine ⟨_, [_], rfl, first_eq_char_iff.mpr (.inr (.inl ?_))⟩
    rw [hoctet _ (by omega)]
    refine ⟨by omega, rfl, _, bs, rfl, ?_⟩
    rw [hoctet _ (by omega)]
    refine ⟨by omega, ?_⟩
    exact hself.symm.trans (congrArg Char.ofNat (by omega))
  · refine ⟨_, [_, _], rfl, first_eq_char_iff.mpr (.inr (.inr (.inl ?_)))⟩
    rw [hoctet _ (by omega)]
    refine ⟨by omega, three_eq_char_iff.mpr ⟨rfl, _, _, bs, rfl, ?_⟩⟩
    rw [hoctet _ (by omega), hoctet _ (by omega)]
    refine ⟨by split_ifs <;> omega, by omega, ?_⟩
    exact hself.symm.trans (congrArg Char.ofNat (by omega))
  · refine ⟨_, [_, _, _], rfl, first_eq_char_iff.mpr (.inr (.inr (.inr ?_)))⟩
    rw [hoctet _ (by omega)]
    refine ⟨by omega, four_eq_char_iff.mpr ⟨rfl, _, _, _, bs, rfl, ?_⟩⟩
    rw [hoctet _ (by omega), hoctet _ (by omega), hoctet _ (by omega)]
    refine ⟨by split_ifs <;> omega, by omega, by omega, ?_⟩
    exact hself.symm.trans (congrArg Char.ofNat (by omega))

section Encoding

variable {x y z : UInt8} {k : Nat}

theorem ofNat_of_eq_toNat (x : UInt8) (h : k = x.toNat) : UInt8.ofNat k = x := by
  rw [h]
  exact UInt8.ofNat_toNat

theorem utf8EncodeChar_one (hb : b.toNat < 0x80) (hc : c.toNat = b.toNat) : utf8EncodeChar c = [b] := by
  have hval : c.val.toNat = c.toNat := rfl
  unfold utf8EncodeChar
  dsimp only
  rw [if_pos (by omega), ofNat_of_eq_toNat b (by omega)]

theorem utf8EncodeChar_two (hb : 0xC2 ≤ b.toNat ∧ b.toNat < 0xE0) (hx : 0x80 ≤ x.toNat ∧ x.toNat ≤ 0xBF)
    (hc : c.toNat = (b.toNat - 0xC0) * 64 + (x.toNat - 0x80)) : utf8EncodeChar c = [b, x] := by
  have hval : c.val.toNat = c.toNat := rfl
  unfold utf8EncodeChar
  dsimp only
  rw [if_neg (by omega), if_pos (by omega), ofNat_of_eq_toNat b (by omega), ofNat_of_eq_toNat x (by omega)]

theorem utf8EncodeChar_three (hb : 0xE0 ≤ b.toNat ∧ b.toNat < 0xF0) (hx : 0x80 ≤ x.toNat ∧ x.toNat ≤ 0xBF)
    (hy : 0x80 ≤ y.toNat ∧ y.toNat ≤ 0xBF) (hleast : b.toNat = 0xE0 → 0xA0 ≤ x.toNat)
    (hc : c.toNat = (b.toNat - 0xE0) * 4096 + (x.toNat - 0x80) * 64 + (y.toNat - 0x80)) :
    utf8EncodeChar c = [b, x, y] := by
  have hval : c.val.toNat = c.toNat := rfl
  unfold utf8EncodeChar
  dsimp only
  rw [if_neg (by omega), if_neg (by omega), if_pos (by omega), ofNat_of_eq_toNat b (by omega),
    ofNat_of_eq_toNat x (by omega), ofNat_of_eq_toNat y (by omega)]

theorem utf8EncodeChar_four (hb : 0xF0 ≤ b.toNat ∧ b.toNat < 0xF5) (hx : 0x80 ≤ x.toNat ∧ x.toNat ≤ 0xBF)
    (hy : 0x80 ≤ y.toNat ∧ y.toNat ≤ 0xBF) (hz : 0x80 ≤ z.toNat ∧ z.toNat ≤ 0xBF)
    (hleast : b.toNat = 0xF0 → 0x90 ≤ x.toNat)
    (hc : c.toNat = (b.toNat - 0xF0) * 262144 + (x.toNat - 0x80) * 4096 + (y.toNat - 0x80) * 64 + (z.toNat - 0x80)) :
    utf8EncodeChar c = [b, x, y, z] := by
  have hval : c.val.toNat = c.toNat := rfl
  unfold utf8EncodeChar
  dsimp only
  rw [if_neg (by omega), if_neg (by omega), if_neg (by omega), ofNat_of_eq_toNat b (by omega),
    ofNat_of_eq_toNat x (by omega), ofNat_of_eq_toNat y (by omega), ofNat_of_eq_toNat z (by omega)]

end Encoding

/-- What is read as a character is its octets. -/
theorem exists_append_of_first (h : first b bs = .char c n) :
    ∃ rest, b :: bs = utf8EncodeChar c ++ rest ∧ n = (utf8EncodeChar c).length := by
  rcases first_eq_char_iff.mp h with ⟨hb, rfl, hc⟩ | ⟨hb, rfl, x, rest, rfl, hx, hc⟩ | ⟨hb, hthree⟩ | ⟨hb, hfour⟩
  · have hnum := congrArg Char.toNat hc
    rw [toNat_ofNat (.inl (by omega))] at hnum
    rw [utf8EncodeChar_one hb hnum]
    exact ⟨bs, rfl, rfl⟩
  · have hnum := congrArg Char.toNat hc
    rw [toNat_ofNat (.inl (by omega))] at hnum
    rw [utf8EncodeChar_two hb hx hnum]
    exact ⟨rest, rfl, rfl⟩
  · obtain ⟨rfl, x, y, rest, rfl, hx, hy, hc⟩ := three_eq_char_iff.mp hthree
    have hnum := congrArg Char.toNat hc
    have hbounds : (0x80 ≤ x.toNat ∧ x.toNat ≤ 0xBF) ∧ (b.toNat = 0xE0 → 0xA0 ≤ x.toNat) ∧
        (b.toNat = 0xED → x.toNat ≤ 0x9F) := by
      split_ifs at hx <;> omega
    rw [toNat_ofNat (by omega)] at hnum
    rw [utf8EncodeChar_three hb hbounds.1 hy hbounds.2.1 hnum]
    exact ⟨rest, rfl, rfl⟩
  · obtain ⟨rfl, x, y, z, rest, rfl, hx, hy, hz, hc⟩ := four_eq_char_iff.mp hfour
    have hnum := congrArg Char.toNat hc
    have hbounds : (0x80 ≤ x.toNat ∧ x.toNat ≤ 0xBF) ∧ (b.toNat = 0xF0 → 0x90 ≤ x.toNat) ∧
        (b.toNat = 0xF4 → x.toNat ≤ 0x8F) := by
      split_ifs at hx <;> omega
    rw [toNat_ofNat (by omega)] at hnum
    rw [utf8EncodeChar_four hb hbounds.1 hy hz hbounds.2.1 hnum]
    exact ⟨rest, rfl, rfl⟩

theorem utf8EncodeChar_ne_nil (c : Char) : utf8EncodeChar c ≠ [] := by
  obtain ⟨b, tail, hc, -⟩ := first_utf8EncodeChar c []
  rw [hc]
  exact List.cons_ne_nil b tail

/-- A character of the ASCII range is one octet of this range, and any other has no octet of it. -/
theorem utf8EncodeChar_cases (c : Char) :
    (∃ b : UInt8, utf8EncodeChar c = [b] ∧ b.toNat < 0x80 ∧ c = Char.ofNat b.toNat) ∨
      (∀ b ∈ utf8EncodeChar c, 0x80 ≤ b.toNat) ∧ 0x80 ≤ c.toNat := by
  have hvalid := toNat_cases c
  have hval : c.val.toNat = c.toNat := rfl
  have hoctet : ∀ k < 256, (UInt8.ofNat k).toNat = k := fun k hk => UInt8.toNat_ofNat_of_lt' hk
  unfold utf8EncodeChar
  dsimp only
  by_cases h₁ : c.val.toNat ≤ 0x7F
  · left
    rw [if_pos h₁]
    refine ⟨_, rfl, ?_⟩
    rw [hoctet _ (by omega)]
    exact ⟨by omega, (Char.ofNat_toNat c).symm⟩
  · refine .inr ⟨?_, by omega⟩
    rw [if_neg h₁]
    split_ifs with h₂ h₃
    all_goals
      simp only [List.forall_mem_cons, List.not_mem_nil, false_imp_iff, implies_true, and_true]
      repeat rw [hoctet _ (by omega)]
      omega

end First

section Ascii

theorem ofNat_injective : Function.Injective fun b : UInt8 => Char.ofNat b.toNat := by
  intro b b' heq
  have hvalue := congrArg Char.toNat heq
  have hlt := b.toNat_lt
  have hlt' := b'.toNat_lt
  rw [toNat_ofNat (.inl (by omega)), toNat_ofNat (.inl (by omega))] at hvalue
  exact UInt8.toNat_inj.mp hvalue

/-- An octet of the ASCII range belongs to no character but its own. -/
theorem count_utf8EncodeChar (c : Char) (hb : b.toNat < 0x80) :
    (utf8EncodeChar c).count b = [c].count (Char.ofNat b.toNat) := by
  rcases utf8EncodeChar_cases c with ⟨x, hx, -, rfl⟩ | ⟨hall, hc⟩
  · rw [hx]
    exact (List.count_map_of_injective [x] _ ofNat_injective b).symm
  · have hnot : b ∉ utf8EncodeChar c := fun hmem => Nat.not_lt.mpr (hall b hmem) hb
    rw [List.count_eq_zero.mpr hnot, List.count_eq_zero.mpr]
    intro hmem
    rw [← List.mem_singleton.mp hmem, toNat_ofNat (.inl (by omega))] at hc
    omega

theorem utf8EncodeChar_ofNat (hb : b.toNat < 0x80) : utf8EncodeChar (Char.ofNat b.toNat) = [b] := by
  rcases utf8EncodeChar_cases (Char.ofNat b.toNat) with ⟨x, hx, -, heq⟩ | ⟨-, hc⟩
  · rw [hx, ofNat_injective heq]
  · rw [toNat_ofNat (.inl (by omega))] at hc
    omega

end Ascii

section Decode

/-- Octets stand there, but not those of a character in front. -/
def Breaks (bs : Octets) : Prop :=
  bs ≠ [] ∧ ∀ c, ¬utf8EncodeChar c <+: bs

@[simp] theorem encode_nil : encode [] = [] :=
  rfl

theorem encode_cons (c : Char) (t : Text) : encode (c :: t) = utf8EncodeChar c ++ encode t :=
  List.flatMap_cons

theorem encode_append (s t : Text) : encode (s ++ t) = encode s ++ encode t :=
  List.flatMap_append

/-- An octet of the ASCII range stands in the octets of a text as often as its character in the text. -/
theorem count_encode (t : Text) (hb : b.toNat < 0x80) : (encode t).count b = t.count (Char.ofNat b.toNat) := by
  induction t with
  | nil => rw [encode_nil, List.count_nil, List.count_nil]
  | cons c t ih => rw [encode_cons, List.count_append, count_utf8EncodeChar c hb, ih, ← List.count_append,
      List.singleton_append]

/-- Octets are those of a text, with nothing behind them that begins with a character. -/
theorem exists_encode_append (bs : Octets) : ∃ t rest, bs = encode t ++ rest ∧ (rest = [] ∨ Breaks rest) := by
  by_cases hbreak : bs = [] ∨ Breaks bs
  · exact ⟨[], bs, rfl, hbreak⟩
  · rw [not_or, Breaks, not_and, Classical.not_forall_not] at hbreak
    obtain ⟨c, rest, rfl⟩ := hbreak.2 hbreak.1
    have hpos := List.length_pos_iff.mpr (utf8EncodeChar_ne_nil c)
    have hshorter : rest.length < (utf8EncodeChar c ++ rest).length := by
      rw [List.length_append]
      omega
    obtain ⟨t, rest', rfl, hrest⟩ := exists_encode_append rest
    exact ⟨c :: t, rest', by rw [encode_cons, List.append_assoc], hrest⟩
termination_by bs.length

theorem piecesFrom_skip (u bs : Octets) : piecesFrom u.length (u ++ bs) = piecesFrom 0 bs := by
  induction u with
  | nil => rfl
  | cons b u ih => exact ih

theorem piecesFrom_utf8EncodeChar (c : Char) (bs : Octets) :
    piecesFrom 0 (utf8EncodeChar c ++ bs) = .char c (utf8EncodeChar c).length :: piecesFrom 0 bs := by
  obtain ⟨b, tail, hc, hfirst⟩ := first_utf8EncodeChar c bs
  rw [hc, List.cons_append, piecesFrom, hfirst]
  simp only [Piece.size, Nat.add_sub_cancel, piecesFrom_skip, List.length_cons]

theorem decode_eq_error_of_breaks (h : Breaks bs) : decode bs = .error 0 := by
  obtain ⟨b, tail, rfl⟩ := List.exists_cons_of_ne_nil h.1
  rw [decode, piecesFrom]
  cases hfirst : first b tail with
  | bad n => rfl
  | char c n =>
    obtain ⟨rest, hrest, -⟩ := exists_append_of_first hfirst
    exact absurd ⟨rest, hrest.symm⟩ (h.2 c)

theorem decode_encode (t : Text) : decode (encode t) = .ok t := by
  induction t with
  | nil => rfl
  | cons c t ih =>
    rw [decode] at ih
    rw [encode_cons, decode, piecesFrom_utf8EncodeChar, collect, ih]

theorem decode_encode_append (t : Text) (h : Breaks bs) : decode (encode t ++ bs) = .error (encode t).length := by
  induction t with
  | nil => exact decode_eq_error_of_breaks h
  | cons c t ih =>
    rw [decode] at ih
    rw [encode_cons, List.append_assoc, decode, piecesFrom_utf8EncodeChar, collect, ih, List.length_append]

/-- Octets are decoded to the text whose octets they are. -/
theorem decode_eq_ok_iff : decode bs = .ok t ↔ bs = encode t := by
  constructor
  · intro h
    obtain ⟨t', rest, rfl, rfl | hbreak⟩ := exists_encode_append bs
    · rw [List.append_nil, decode_encode] at h
      rw [List.append_nil, Except.ok.inj h]
    · rw [decode_encode_append t' hbreak] at h
      cases h
  · rintro rfl
    exact decode_encode t

/-- Octets cannot be decoded if they break off, behind a text, from what any character is. -/
theorem decode_eq_error_iff :
    decode bs = .error n ↔ ∃ t rest, bs = encode t ++ rest ∧ Breaks rest ∧ n = (encode t).length := by
  constructor
  · intro h
    obtain ⟨t, rest, rfl, rfl | hbreak⟩ := exists_encode_append bs
    · rw [List.append_nil, decode_encode] at h
      cases h
    · rw [decode_encode_append t hbreak] at h
      exact ⟨t, rest, rfl, hbreak, (Except.error.inj h).symm⟩
  · rintro ⟨t, rest, rfl, hbreak, rfl⟩
    exact decode_encode_append t hbreak

end Decode

end DraftLint.Utf8
