import DraftLint.Proofs.Address.Groups

/-!
# Values of addresses

A text is read as an IPv6 address exactly if it is one of the forms of that address, and the address is objectionable for
what its leading bits tell.
-/

namespace DraftLint.Address.IPv6

variable {s : Text} {ps qs : List Text} {ns : List Nat} {x : IPv6}

/-- The text writes the address: eight groups with colons between, or less with two colons for groups of zeros. -/
inductive Spells : Text → IPv6 → Prop
  | full {ts : List Text} {ns : List Nat} (h : WriteGroups ts ns) (hlength : ns.length = 8) :
      Spells (Text.join [':'] ts) (ofGroups ns)
  | compressed {front back : List Text} {fs bs : List Nat} {k : Nat} (hfront : List.Forall₂ WritesGroup front fs)
      (hback : WriteGroups back bs) (hk : 0 < k) (hlength : fs.length + k + bs.length = 8) :
      Spells (Text.join [':'] front ++ ':' :: ':' :: Text.join [':'] back) (ofGroups (fs ++ List.replicate k 0 ++ bs))

/-- What an address of 128 bits is objectionable for, by its leading bits. -/
inductive ConcernOf (v : Nat) : Option Concern → Prop
  | documentation (h : v / 2 ^ 96 = 0x20010DB8) : ConcernOf v none
  | loopback (h : v = 1) : ConcernOf v none
  | unspecified (h : v = 0) : ConcernOf v none
  | uniqueLocal (h : v / 2 ^ 121 = 0b1111110) : ConcernOf v (some .uniqueLocal)
  | linkLocal (h : v / 2 ^ 118 = 0b1111111010) : ConcernOf v (some .linkLocal)
  | generic (hspecial : v ≠ 0 ∧ v ≠ 1) (hdocumentation : v / 2 ^ 96 ≠ 0x20010DB8)
      (huniqueLocal : v / 2 ^ 121 ≠ 0b1111110) (hlinkLocal : v / 2 ^ 118 ≠ 0b1111111010) : ConcernOf v (some .generic)

/-- What a text is objectionable for: nothing, or what the address is that it spells. -/
inductive Judged (s : Text) : Option Concern → Prop
  | address {x : IPv6} {o : Option Concern} (h : Spells s x) (ho : ConcernOf x.value o) : Judged s o
  | other (h : ∀ x, ¬Spells s x) : Judged s none

section Reading

theorem read?_of_full (hparts : parts? s = some qs) (hns : List.Forall₂ WritesGroup qs ns) (height : ns.length = 8) :
    read? s = some (ofGroups ns) := by
  have hlength : qs.length = 8 := hns.length_eq.trans height
  have hgap : ((qs.drop 1).dropLast.zipIdx 1).filter (fun q => q.1.isEmpty) = [] :=
    filter_zipIdx_eq_nil (fun t ht => ne_nil_of_mem hns (List.mem_of_mem_drop (List.dropLast_subset _ ht))) 1
  unfold read?
  simp only [hparts, Option.bind_eq_bind, Option.bind_some]
  rw [if_neg (by omega)]
  simp only [hgap, hlength, ne_eq, not_true, if_false, groups?_eq_some_iff.mpr hns, Option.map_some]

theorem read?_of_gap {front back : List Text} {fs bs : List Nat} {k : Nat}
    (hparts : parts? s = some (padded front ++ [] :: padded back)) (hfront : List.Forall₂ WritesGroup front fs)
    (hback : List.Forall₂ WritesGroup back bs) (hk : 0 < k) (hsum : fs.length + k + bs.length = 8) :
    read? s = some (ofGroups (fs ++ List.replicate k 0 ++ bs)) := by
  have hgap := filter_zipIdx_gap (padded_ne_nil front) (padded_ne_nil back)
    (fun t ht => ne_nil_of_mem hfront (List.mem_of_mem_tail (apply_padded List.tail rfl front ▸ ht)))
    (fun t ht => ne_nil_of_mem hback (List.dropLast_subset _ (apply_padded List.dropLast rfl back ▸ ht)))
  have hlength : ¬(padded front ++ [] :: padded back).length > 9 := by
    rw [List.length_append, List.length_cons, length_padded, length_padded, hfront.length_eq, hback.length_eq]
    omega
  unfold read?
  simp only [hparts, Option.bind_eq_bind, Option.bind_some]
  rw [if_neg hlength]
  simp only [hgap, List.take_left, drop_gap, bind_ite]
  rw [end_padded (fun t => ne_nil_of_mem hfront) (fun t => List.mem_of_head?) (by rintro rfl; rfl),
    Option.bind_some,
    end_padded (fun t => ne_nil_of_mem hback) (fun t => List.mem_of_getLast?) (by rintro rfl; rfl),
    Option.bind_some]
  exact acrossGap?_eq_some_iff.mpr ⟨fs, bs, k, hfront, hback, hk, hsum, rfl⟩

/-- A text is read by its parts: eight groups, or less around a gap. -/
theorem read?_eq_some_iff_of_parts (hparts : parts? s = some qs) : read? s = some x ↔
    (∃ ns, List.Forall₂ WritesGroup qs ns ∧ ns.length = 8 ∧ x = ofGroups ns) ∨
      ∃ front back fs bs k, qs = padded front ++ [] :: padded back ∧ List.Forall₂ WritesGroup front fs ∧
        List.Forall₂ WritesGroup back bs ∧ 0 < k ∧ fs.length + k + bs.length = 8 ∧
        x = ofGroups (fs ++ List.replicate k 0 ++ bs) := by
  constructor
  · intro h
    unfold read? at h
    simp only [hparts, Option.bind_eq_bind, Option.bind_some] at h
    by_cases hlength : qs.length > 9
    · simp [hlength] at h
    simp only [hlength, if_false] at h
    split at h
    case h_1 p i hgap =>
      obtain ⟨htake, hdrop, hsplit⟩ := take_gap_drop hgap
      simp only [bind_ite, Option.bind_eq_some_iff] at h
      obtain ⟨front, hfront, back, hback, h⟩ := h
      obtain ⟨fs, bs, k, hfs, hbs, hk, hsum, hx⟩ := acrossGap?_eq_some_iff.mp h
      rw [eq_padded htake (fun t ht => by rw [ht, List.head?_cons]) hfront,
        eq_padded hdrop (fun t ht => by rw [ht, List.getLast?_singleton]) hback] at hsplit
      exact .inr ⟨front, back, fs, bs, k, hsplit.symm, hfs, hbs, hk, hsum, hx⟩
    case h_2 hgap =>
      split_ifs at h with height
      obtain ⟨ns, hns, rfl⟩ := Option.map_eq_some_iff.mp h
      rw [groups?_eq_some_iff] at hns
      exact .inl ⟨ns, hns, by rw [← hns.length_eq]; exact Decidable.not_not.mp height, rfl⟩
    case h_3 => cases h
  · rintro (⟨ns, hns, height, rfl⟩ | ⟨front, back, fs, bs, k, rfl, hfront, hback, hk, hsum, rfl⟩)
    · exact read?_of_full hparts hns height
    · exact read?_of_gap hparts hfront hback hk hsum

theorem WriteGroups.spec (h : WriteGroups ps ns) : ns.length ≤ ps.length + 1 ∧ ∀ p ∈ ps, ':' ∉ p := by
  have hcolon : ∀ {ts ns}, List.Forall₂ WritesGroup ts ns → ∀ t ∈ ts, ':' ∉ t := by
    intro ts ns hts t ht hmem
    obtain ⟨n, hn⟩ := exists_writesGroup hts t ht
    exact absurd (hn.spec.2 ':' hmem) (by decide)
  cases h with
  | hexadecimal h => exact ⟨by rw [h.length_eq]; omega, hcolon h⟩
  | dotted h hq =>
    refine ⟨by simp [h.length_eq], List.forall_mem_append.mpr ⟨hcolon h, ?_⟩⟩
    rw [List.forall_mem_singleton]
    exact hq.colon_not_mem

/-- A text is read as an address exactly if it spells it. -/
theorem read?_eq_some_iff : read? s = some x ↔ Spells s x := by
  constructor
  · intro h
    obtain ⟨qs, hparts, -⟩ := Option.bind_eq_some_iff.mp h
    obtain ⟨-, hparted⟩ := parts?_eq_some_iff.mp hparts
    rw [← Text.join_splitOn ':' s]
    rcases (read?_eq_some_iff_of_parts hparts).mp h with
      ⟨ns, hns, height, rfl⟩ | ⟨front, back, fs, bs, k, rfl, hfront, hback, hk, hsum, rfl⟩
    · exact .full (writeGroups_iff.mpr ⟨qs, hparted, hns⟩) height
    · obtain ⟨ts, hsplit, hts⟩ := parted_gap_iff.mp hparted
      rw [hsplit, join_gap]
      exact .compressed hfront (writeGroups_iff.mpr ⟨back, hts, hback⟩) hk hsum
  · intro h
    cases h with
    | @full ts ns h height =>
      obtain ⟨hlength, hcolon⟩ := h.spec
      obtain ⟨qs, hparted, hns⟩ := writeGroups_iff.mp h
      have hne : ts ≠ [] := List.length_pos_iff.mp (by omega)
      have hsplit := Text.splitOn_join hne hcolon
      have hparts := parts?_eq_some_iff.mpr ⟨by rw [hsplit]; omega, by rwa [hsplit]⟩
      exact (read?_eq_some_iff_of_parts hparts).mpr (.inl ⟨ns, hns, height, rfl⟩)
    | @compressed front ts fs bs k hfront hts hk hsum =>
      obtain ⟨back, hparted, hback⟩ := writeGroups_iff.mp hts
      have hsplit := splitOn_gap (WriteGroups.hexadecimal hfront).spec.2 hts.spec.2
      have hlength : 3 ≤ (padded front ++ [] :: padded ts).length := by
        rw [List.length_append, List.length_cons, length_padded, length_padded]
        omega
      have hparts := parts?_eq_some_iff.mpr
        ⟨by rwa [hsplit], by rw [hsplit]; exact parted_gap_iff.mpr ⟨ts, rfl, hparted⟩⟩
      exact (read?_eq_some_iff_of_parts hparts).mpr
        (.inr ⟨front, back, fs, bs, k, rfl, hfront, hback, hk, hsum, rfl⟩)

/-- The groups have 16 bits each. -/
theorem WriteGroups.lt (h : WriteGroups ps ns) : ∀ n ∈ ns, n < 65536 := by
  have hgroups : ∀ {ts ns}, List.Forall₂ WritesGroup ts ns → ∀ n ∈ ns, n < 65536 := by
    intro ts ns hts
    induction hts with
    | nil => exact List.forall_mem_nil _
    | cons hn _ ih => exact List.forall_mem_cons.mpr ⟨hn.lt, ih⟩
  cases h with
  | hexadecimal h => exact hgroups h
  | dotted h hq =>
    have hle := hq.le
    simp only [List.forall_mem_cons] at hle
    refine List.forall_mem_append.mpr ⟨hgroups h, ?_⟩
    simp only [List.forall_mem_cons, List.not_mem_nil, false_imp_iff, implies_true, and_true]
    omega

/-- The addresses that can be spelled are the numbers of 128 bits. -/
theorem exists_spells_iff : (∃ s, Spells s x) ↔ x.value < 2 ^ 128 := by
  have hgroups := Text.exists_valueAfter_iff (b := 65536) (k := 8) (n := x.value) (by decide)
  rw [show (65536 : Nat) ^ 8 = 2 ^ 128 from rfl] at hgroups
  rw [← hgroups]
  constructor
  · rintro ⟨s, h⟩
    cases h with
    | full h height => exact ⟨_, height, h.lt, rfl⟩
    | @compressed _ _ fs bs k hfront hback hk hsum =>
      refine ⟨fs ++ List.replicate k 0 ++ bs, ?_, ?_, rfl⟩
      · rw [List.length_append, List.length_append, List.length_replicate, hsum]
      refine List.forall_mem_append.mpr ⟨List.forall_mem_append.mpr ⟨(WriteGroups.hexadecimal hfront).lt, ?_⟩, hback.lt⟩
      intro n hn
      rw [List.eq_of_mem_replicate hn]
      decide
  · rintro ⟨ns, height, hlt, hvalue⟩
    have hx : x = ofGroups ns := congrArg IPv6.mk hvalue.symm
    have hwritten : List.Forall₂ WritesGroup (ns.map (Nat.toDigits 16)) ns := by
      rw [List.forall₂_map_left_iff, List.forall₂_same]
      exact fun n hn => writesGroup_toDigits (hlt n hn)
    rw [hx]
    exact ⟨_, .full (.hexadecimal hwritten) height⟩

end Reading

section Concerns

/-- The concern about an address can be told from its leading bits. -/
theorem concern?_eq_iff {o : Option Concern} : x.concern? = o ↔ ConcernOf x.value o := by
  have hdocumentation : documentation.has x.value ↔ x.value / 2 ^ 96 = 0x20010DB8 := Network.has_iff _ _
  have huniqueLocal : uniqueLocal.has x.value ↔ x.value / 2 ^ 121 = 0b1111110 := Network.has_iff _ _
  have hlinkLocal : linkLocal.has x.value ↔ x.value / 2 ^ 118 = 0b1111111010 := Network.has_iff _ _
  have hconcern : x.concern? =
      if x.value / 2 ^ 96 = 0x20010DB8 ∨ x.value = 1 ∨ x.value = 0 then none
      else if x.value / 2 ^ 121 = 0b1111110 then some .uniqueLocal
      else if x.value / 2 ^ 118 = 0b1111111010 then some .linkLocal
      else some .generic := by
    simp only [concern?, hdocumentation, huniqueLocal, hlinkLocal, Bool.or_eq_true, beq_iff_eq, or_assoc]
  rw [hconcern]
  constructor
  · rintro rfl
    split_ifs with hspecial hunique hlink
    · rcases hspecial with h | h | h
      · exact .documentation h
      · exact .loopback h
      · exact .unspecified h
    · exact .uniqueLocal hunique
    · exact .linkLocal hlink
    · rw [not_or, not_or] at hspecial
      exact .generic ⟨hspecial.2.2, hspecial.2.1⟩ hspecial.1 hunique hlink
  · intro h
    cases h with
    | documentation h => rw [if_pos (.inl h)]
    | loopback h => rw [if_pos (.inr (.inl h))]
    | unspecified h => rw [if_pos (.inr (.inr h))]
    | uniqueLocal h => rw [if_neg (by omega), if_pos h]
    | linkLocal h => rw [if_neg (by omega), if_neg (by omega), if_pos h]
    | generic hspecial hdocumentation huniqueLocal hlinkLocal =>
      rw [if_neg (by omega), if_neg huniqueLocal, if_neg hlinkLocal]

theorem judged_iff {o : Option Concern} : (read? s).bind concern? = o ↔ Judged s o := by
  cases hread : read? s with
  | none =>
    have hother : ∀ x, ¬Spells s x := fun x h => by
      rw [read?_eq_some_iff.mpr h] at hread
      cases hread
    rw [Option.bind_none]
    constructor
    · rintro rfl
      exact .other hother
    · rintro (⟨h, -⟩ | -)
      · exact absurd h (hother _)
      · rfl
  | some x =>
    have h := read?_eq_some_iff.mp hread
    rw [Option.bind_some, concern?_eq_iff]
    constructor
    · exact .address h
    · rintro (⟨h', ho⟩ | hother)
      · rwa [Option.some.inj (hread.symm.trans (read?_eq_some_iff.mpr h'))]
      · exact absurd h (hother x)

end Concerns

end DraftLint.Address.IPv6
