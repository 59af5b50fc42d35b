import DraftLint.Address.IPv4
import DraftLint.Proofs.Text.LineEnds
import DraftLint.Proofs.Text.Radix
import DraftLint.Proofs.Text.Writing

/-!
# Octets of an address

A text is read as an IPv4 address exactly if it writes four octets, and the address is objectionable for what its octets
tell.
-/

namespace DraftLint.Address

theorem Network.has_iff (n : Network) (v : Nat) : n.has v ↔ v / 2 ^ n.hostBits = n.address / 2 ^ n.hostBits := by
  rw [has, beq_iff_eq, Nat.shiftRight_eq_div_pow, Nat.shiftRight_eq_div_pow]

namespace IPv4

variable {s t : Text} {a b c d n : Nat}

/-- The text writes four numbers up to 255 in plain digits, with full stops between. -/
structure Writes (s : Text) (a b c d : Nat) : Prop where
  le : ∀ n ∈ [a, b, c, d], n ≤ 255
  eq : s = Text.join ['.'] [Text.ofNat a, Text.ofNat b, Text.ofNat c, Text.ofNat d]

/-- What an address of four octets is objectionable for.  A network for documentation is among those for multicast. -/
inductive ConcernOf (a b c d : Nat) : Option Concern → Prop
  | documentation (h : (a, b, c) ∈ [(192, 0, 2), (198, 51, 100), (203, 0, 113), (233, 252, 0)]) : ConcernOf a b c d none
  | loopback (h : a = 127) : ConcernOf a b c d none
  | unspecified (h : (a, b, c, d) = (0, 0, 0, 0)) : ConcernOf a b c d none
  | broadcast (h : (a, b, c, d) = (255, 255, 255, 255)) : ConcernOf a b c d none
  | privateUse (h : a = 10 ∨ a = 172 ∧ 16 ≤ b ∧ b < 32 ∨ a = 192 ∧ b = 168) : ConcernOf a b c d (some .privateUse)
  | multicast (h : 224 ≤ a ∧ a < 240) (hdocumentation : (a, b, c) ≠ (233, 252, 0)) :
      ConcernOf a b c d (some .multicast)
  | generic (hspecial : (a, b, c, d) ≠ (0, 0, 0, 0) ∧ (a, b, c, d) ≠ (255, 255, 255, 255) ∧ a ≠ 127)
      (hdocumentation : (a, b, c) ∉ [(192, 0, 2), (198, 51, 100), (203, 0, 113)])
      (hprivate : ¬(a = 10 ∨ a = 172 ∧ 16 ≤ b ∧ b < 32 ∨ a = 192 ∧ b = 168)) (hmulticast : ¬(224 ≤ a ∧ a < 240)) :
      ConcernOf a b c d (some .generic)

/-- What a text is objectionable for: nothing, or what the address is that it writes. -/
inductive Judged (s : Text) : Option Concern → Prop
  | address {a b c d : Nat} {o : Option Concern} (h : Writes s a b c d) (ho : ConcernOf a b c d o) : Judged s o
  | other (h : ∀ a b c d, ¬Writes s a b c d) : Judged s none

section Reading

theorem octet?_ofNat : ∀ n ≤ 255, octet? (Text.ofNat n) = some n := by
  decide +kernel

/-- An octet is written in its own digits. -/
theorem octet?_eq_some_iff : octet? t = some n ↔ n ≤ 255 ∧ t = Text.ofNat n := by
  constructor
  · intro h
    unfold octet? at h
    split_ifs at h with hform hzero
    dsimp only at h
    split_ifs at h with hle
    rw [Bool.or_eq_true, Bool.or_eq_true, not_or, not_or, List.isEmpty_iff, Bool.not_eq_true', Bool.not_eq_false,
      List.all_eq_true] at hform
    obtain ⟨⟨hne, hdigits⟩, -⟩ := hform
    obtain ⟨k, hk⟩ := Text.exists_zeros_ofNat hne hdigits
    rw [Option.some.inj h] at hk hle
    refine ⟨hle, ?_⟩
    cases k with
    | zero => exact hk
    | succ k =>
      have hpos := List.length_pos_iff.mpr (Text.ofNat_ne_nil n)
      have hmore : 1 < t.length := by
        rw [hk, List.length_append, List.length_replicate]
        omega
      refine absurd ?_ hzero
      rw [Bool.and_eq_true, decide_eq_true_eq, hk, List.replicate_succ]
      exact ⟨by rwa [hk, List.replicate_succ] at hmore, rfl⟩
  · rintro ⟨hle, rfl⟩
    exact octet?_ofNat n hle

theorem Writes.dot_mem (h : Writes s a b c d) : '.' ∈ s := by
  rw [h.eq]
  simp [Text.join]

theorem Writes.colon_not_mem (h : Writes s a b c d) : ':' ∉ s := by
  have hdigits : ∀ n, ':' ∉ Text.ofNat n := fun n h => absurd (Text.isDecimal_ofNat n ':' h) (by decide)
  rw [h.eq]
  simp [Text.join, hdigits]

theorem dot_not_mem_ofNat (n : Nat) : '.' ∉ Text.ofNat n :=
  fun h => absurd (Text.isDecimal_ofNat n '.' h) (by decide)

/-- A text is read as an address exactly if it writes its octets. -/
theorem read?_eq_some_iff {x : IPv4} : read? s = some x ↔ ∃ a b c d, Writes s a b c d ∧ x = ofOctets a b c d := by
  constructor
  · intro h
    have hjoin := Text.join_splitOn '.' s
    unfold read? at h
    split at h
    case h_1 i j k l hmap =>
      obtain ⟨a, ts, hsplit, ha, hmap⟩ := List.map_eq_cons_iff.mp hmap
      obtain ⟨b, ts, rfl, hb, hmap⟩ := List.map_eq_cons_iff.mp hmap
      obtain ⟨c, ts, rfl, hc, hmap⟩ := List.map_eq_cons_iff.mp hmap
      obtain ⟨d, ts, rfl, hd, hmap⟩ := List.map_eq_cons_iff.mp hmap
      obtain rfl := List.map_eq_nil_iff.mp hmap
      obtain ⟨hi, rfl⟩ := octet?_eq_some_iff.mp ha
      obtain ⟨hj, rfl⟩ := octet?_eq_some_iff.mp hb
      obtain ⟨hk, rfl⟩ := octet?_eq_some_iff.mp hc
      obtain ⟨hl, rfl⟩ := octet?_eq_some_iff.mp hd
      refine ⟨i, j, k, l, ⟨by simp [hi, hj, hk, hl], by rw [← hsplit, hjoin]⟩, (Option.some.inj h).symm⟩
    case h_2 => cases h
  · rintro ⟨a, b, c, d, ⟨hle, rfl⟩, rfl⟩
    have hsplit : Text.splitOn '.' (Text.join ['.'] ([a, b, c, d].map Text.ofNat)) = [a, b, c, d].map Text.ofNat :=
      Text.splitOn_join (List.cons_ne_nil _ _) fun p hp => by
        obtain ⟨n, -, rfl⟩ := List.mem_map.mp hp
        exact dot_not_mem_ofNat n
    simp only [List.forall_mem_cons] at hle
    obtain ⟨ha, hb, hc, hd, -⟩ := hle
    unfold read?
    rw [show [Text.ofNat a, Text.ofNat b, Text.ofNat c, Text.ofNat d] = [a, b, c, d].map Text.ofNat from rfl, hsplit]
    simp only [List.map_cons, List.map_nil, octet?_ofNat a ha, octet?_ofNat b hb, octet?_ofNat c hc, octet?_ofNat d hd]

theorem value_ofOctets (a b c d : Nat) : (ofOctets a b c d).value = ((a * 256 + b) * 256 + c) * 256 + d :=
  rfl

theorem text_ofOctets (hle : ∀ n ∈ [a, b, c, d], n ≤ 255) :
    (ofOctets a b c d).text = Text.join ['.'] [Text.ofNat a, Text.ofNat b, Text.ofNat c, Text.ofNat d] := by
  simp only [List.forall_mem_cons] at hle
  have ha : (ofOctets a b c d).value >>> 24 % 256 = a := by
    rw [value_ofOctets, Nat.shiftRight_eq_div_pow]
    omega
  have hb : (ofOctets a b c d).value >>> 16 % 256 = b := by
    rw [value_ofOctets, Nat.shiftRight_eq_div_pow]
    omega
  have hc : (ofOctets a b c d).value >>> 8 % 256 = c := by
    rw [value_ofOctets, Nat.shiftRight_eq_div_pow]
    omega
  have hd : (ofOctets a b c d).value >>> 0 % 256 = d := by
    rw [value_ofOctets, Nat.shiftRight_zero]
    omega
  rw [text, List.map_cons, List.map_cons, List.map_cons, List.map_cons, List.map_nil, ha, hb, hc, hd]

end Reading

section Concerns

variable {p q r bits : Nat}

/-- A network of 24 bits has the addresses that begin with its three octets. -/
theorem has_network_24_iff (hle : ∀ n ∈ [a, b, c, d], n ≤ 255) (hnet : ∀ n ∈ [p, q, r], n ≤ 255) :
    (network p q r 0 24).has (ofOctets a b c d).value ↔ (a, b, c) = (p, q, r) := by
  simp only [List.forall_mem_cons] at hle hnet
  rw [Network.has_iff, Prod.mk.injEq, Prod.mk.injEq]
  simp only [network, ofOctets, Nat.reduceSub]
  omega

theorem documentation_iff (hle : ∀ n ∈ [a, b, c, d], n ≤ 255) :
    documentation.any (·.has (ofOctets a b c d).value) ↔
      (a, b, c) ∈ [(192, 0, 2), (198, 51, 100), (203, 0, 113), (233, 252, 0)] := by
  rw [documentation, List.any_cons, List.any_cons, List.any_cons, List.any_cons, List.any_nil]
  simp only [Bool.or_eq_true, Bool.false_eq_true, or_false, List.mem_cons, List.not_mem_nil]
  rw [has_network_24_iff hle (by decide), has_network_24_iff hle (by decide), has_network_24_iff hle (by decide),
    has_network_24_iff hle (by decide)]

theorem special_iff (hle : ∀ n ∈ [a, b, c, d], n ≤ 255) :
    (loopback.has (ofOctets a b c d).value || (ofOctets a b c d).value == 0 ||
      (ofOctets a b c d).value == 0xFFFFFFFF) ↔
      a = 127 ∨ (a, b, c, d) = (0, 0, 0, 0) ∨ (a, b, c, d) = (255, 255, 255, 255) := by
  simp only [List.forall_mem_cons] at hle
  rw [Bool.or_eq_true, Bool.or_eq_true, Network.has_iff, beq_iff_eq, beq_iff_eq]
  simp only [loopback, network, ofOctets, Nat.reduceSub, Prod.mk.injEq]
  omega

theorem privateUse_iff (hle : ∀ n ∈ [a, b, c, d], n ≤ 255) :
    privateUse.any (·.has (ofOctets a b c d).value) ↔ a = 10 ∨ a = 172 ∧ 16 ≤ b ∧ b < 32 ∨ a = 192 ∧ b = 168 := by
  simp only [List.forall_mem_cons] at hle
  rw [privateUse, List.any_cons, List.any_cons, List.any_cons, List.any_nil]
  simp only [Bool.or_eq_true, Bool.false_eq_true, or_false, Network.has_iff]
  simp only [network, ofOctets, Nat.reduceSub]
  omega

theorem multicast_iff (hle : ∀ n ∈ [a, b, c, d], n ≤ 255) :
    multicast.has (ofOctets a b c d).value ↔ 224 ≤ a ∧ a < 240 := by
  simp only [List.forall_mem_cons] at hle
  rw [Network.has_iff]
  simp only [multicast, network, ofOctets, Nat.reduceSub]
  omega

theorem concern?_ofOctets (hle : ∀ n ∈ [a, b, c, d], n ≤ 255) : (ofOctets a b c d).concern? =
    if (a, b, c) ∈ [(192, 0, 2), (198, 51, 100), (203, 0, 113), (233, 252, 0)] then none
    else if a = 127 ∨ (a, b, c, d) = (0, 0, 0, 0) ∨ (a, b, c, d) = (255, 255, 255, 255) then none
    else if a = 10 ∨ a = 172 ∧ 16 ≤ b ∧ b < 32 ∨ a = 192 ∧ b = 168 then some .privateUse
    else if 224 ≤ a ∧ a < 240 then some .multicast
    else some .generic := by
  simp only [concern?, documentation_iff hle, special_iff hle, privateUse_iff hle, multicast_iff hle]

theorem concernOf_concern? (hle : ∀ n ∈ [a, b, c, d], n ≤ 255) : ConcernOf a b c d (ofOctets a b c d).concern? := by
  rw [concern?_ofOctets hle]
  split_ifs with hdocumentation hspecial hprivate hmulticast
  · exact .documentation hdocumentation
  · rcases hspecial with h | h | h
    · exact .loopback h
    · exact .unspecified h
    · exact .broadcast h
  · exact .privateUse hprivate
  · exact .multicast hmulticast fun h => hdocumentation (by simp [h])
  · rw [not_or, not_or] at hspecial
    exact .generic ⟨hspecial.2.1, hspecial.2.2, hspecial.1⟩ (fun h => hdocumentation (by simp at h ⊢; omega))
      hprivate hmulticast

/-- The concerns rule each other out, since the address for multicast that is set aside for documentation counts as the
latter. -/
theorem ConcernOf.eq_concern? {o : Option Concern} (h : ConcernOf a b c d o) (hle : ∀ n ∈ [a, b, c, d], n ≤ 255) :
    (ofOctets a b c d).concern? = o := by
  rw [concern?_ofOctets hle]
  cases h with
  | documentation h => rw [if_pos h]
  | loopback h =>
    subst h
    rw [if_neg (by simp), if_pos (.inl rfl)]
  | unspecified h =>
    cases h
    rfl
  | broadcast h =>
    cases h
    rfl
  | privateUse h =>
    rw [if_neg (by simp; omega), if_neg (by simp; omega), if_pos h]
  | multicast h hdocumentation =>
    rw [if_neg (by simp at hdocumentation ⊢; omega), if_neg (by simp; omega), if_neg (by omega), if_pos h]
  | generic hspecial hdocumentation hprivate hmulticast =>
    have hnone : (a, b, c) ≠ (233, 252, 0) := fun h => hmulticast (by simp at h; omega)
    rw [if_neg, if_neg, if_neg hprivate, if_neg hmulticast]
    · rintro (h | h | h)
      · exact hspecial.2.2 h
      · exact hspecial.1 h
      · exact hspecial.2.1 h
    · intro h
      rw [List.mem_cons, List.mem_cons, List.mem_cons, List.mem_singleton] at h
      simp only [List.mem_cons, List.not_mem_nil, or_false, not_or] at hdocumentation
      tauto

/-- The concern about an address can be told from its octets. -/
theorem concern?_eq_iff {o : Option Concern} (hle : ∀ n ∈ [a, b, c, d], n ≤ 255) :
    (ofOctets a b c d).concern? = o ↔ ConcernOf a b c d o := by
  constructor
  · rintro rfl
    exact concernOf_concern? hle
  · exact fun h => h.eq_concern? hle

theorem judged_iff {o : Option Concern} : (read? s).bind concern? = o ↔ Judged s o := by
  cases hread : read? s with
  | none =>
    have hother : ∀ a b c d, ¬Writes s a b c d := by
      intro a b c d h
      rw [read?_eq_some_iff.mpr ⟨a, b, c, d, h, rfl⟩] at hread
      cases hread
    rw [Option.bind_none]
    constructor
    · rintro rfl
      exact .other hother
    · rintro (⟨h, -⟩ | -)
      · exact absurd h (hother _ _ _ _)
      · rfl
  | some x =>
    obtain ⟨a, b, c, d, h, rfl⟩ := read?_eq_some_iff.mp hread
    rw [Option.bind_some, concern?_eq_iff h.le]
    constructor
    · exact .address h
    · rintro (⟨h', ho⟩ | hother)
      · have hread' := read?_eq_some_iff.mpr ⟨_, _, _, _, h', rfl⟩
        rw [← concern?_eq_iff h.le, Option.some.inj (hread.symm.trans hread'), concern?_eq_iff h'.le]
        exact ho
      · exact absurd h (hother a b c d)

end Concerns

end IPv4

end DraftLint.Address
