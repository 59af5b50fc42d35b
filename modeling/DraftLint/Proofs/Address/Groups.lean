import DraftLint.Address.IPv6
import DraftLint.Proofs.Address.Octets
import Mathlib.Data.List.Forall2

/-!
# Groups of an address

The groups of an IPv6 address are written in hexadecimal digits, and the last two perhaps as octets.  A text is taken to
its parts between colons, and where one of them is empty there is a gap.
-/

namespace DraftLint.Address.IPv6

variable {s g q t : Text} {ts front back ps qs : List Text} {n a b c d : Nat} {ns fs bs : List Nat} {x : IPv6}

/-- Up to four hexadecimal digits of either case that write the number, perhaps with zeros in front. -/
structure WritesGroup (g : Text) (n : Nat) : Prop where
  length_le : g.length ≤ 4
  eq : ∃ k, g.map Char.toLower = List.replicate k '0' ++ Nat.toDigits 16 n

/-- The texts write the groups one by one, but the last two groups may be written as four octets. -/
inductive WriteGroups : List Text → List Nat → Prop
  | hexadecimal {ts : List Text} {ns : List Nat} (h : List.Forall₂ WritesGroup ts ns) : WriteGroups ts ns
  | dotted {ts : List Text} {ns : List Nat} {q : Text} {a b c d : Nat} (h : List.Forall₂ WritesGroup ts ns)
      (hq : IPv4.Writes q a b c d) : WriteGroups (ts ++ [q]) (ns ++ [a * 256 + b, c * 256 + d])

section Groups

theorem group?_eq_some_iff : group? g = some n ↔ WritesGroup g n := by
  have hform : group? g = some n ↔ g.length ≤ 4 ∧ g ≠ [] ∧ (∀ c ∈ g, Text.isHexDigit c) ∧ Text.ofHexDigits g = n := by
    unfold group?
    split_ifs with h
    · refine iff_of_false nofun ?_
      rintro ⟨hlength, hne, hhex, -⟩
      simp only [Bool.or_eq_true, List.isEmpty_iff, decide_eq_true_eq, Bool.not_eq_true', List.all_eq_false] at h
      rcases h with (h | h) | ⟨c, hc, h⟩
      · exact hne h
      · omega
      · exact h (hhex c hc)
    · simp only [Bool.or_eq_true, List.isEmpty_iff, decide_eq_true_eq, Bool.not_eq_true', not_or, Bool.not_eq_false,
        List.all_eq_true] at h
      rw [Option.some_inj]
      exact ⟨fun hn => ⟨by omega, h.1.1, h.2, hn⟩, fun hn => hn.2.2.2⟩
  rw [hform]
  constructor
  · rintro ⟨hlength, hne, h⟩
    exact ⟨hlength, (Text.ofHexDigits_eq_iff hne).mp h⟩
  · rintro ⟨hlength, h⟩
    have hne : g ≠ [] := by
      rintro rfl
      obtain ⟨k, hk⟩ := h
      exact Nat.toDigits_ne_nil (List.append_eq_nil_iff.mp hk.symm).2
    exact ⟨hlength, hne, (Text.ofHexDigits_eq_iff hne).mpr h⟩

theorem WritesGroup.unique {m : Nat} (h : WritesGroup g n) (h' : WritesGroup g m) : n = m :=
  Option.some.inj ((group?_eq_some_iff.mpr h).symm.trans (group?_eq_some_iff.mpr h'))

theorem groups?_eq_some_iff : groups? ts = some ns ↔ List.Forall₂ WritesGroup ts ns := by
  induction ts generalizing ns with
  | nil =>
    rw [groups?, List.mapM_nil]
    constructor
    · intro h
      cases h
      exact .nil
    · rintro ⟨⟩
      rfl
  | cons t ts ih =>
    rw [groups?, List.mapM_cons]
    constructor
    · intro h
      obtain ⟨n, hn, h⟩ := Option.bind_eq_some_iff.mp h
      obtain ⟨ns', hns, h⟩ := Option.bind_eq_some_iff.mp h
      obtain rfl := Option.some.inj h
      exact .cons (group?_eq_some_iff.mp hn) (ih.mp hns)
    · rintro (_ | ⟨hn, hns⟩)
      rw [group?_eq_some_iff.mpr hn]
      have hrest := ih.mpr hns
      rw [groups?] at hrest
      simp only [Option.bind_eq_bind, Option.bind_some, hrest]
      rfl

theorem WritesGroup.spec (h : WritesGroup g n) : g ≠ [] ∧ ∀ c ∈ g, Text.isHexDigit c := by
  have hread := group?_eq_some_iff.mpr h
  unfold group? at hread
  split_ifs at hread with hform
  simp only [Bool.or_eq_true, List.isEmpty_iff, Bool.not_eq_true', not_or, Bool.not_eq_false, List.all_eq_true] at hform
  exact ⟨hform.1.1, hform.2⟩

theorem WritesGroup.lt (h : WritesGroup g n) : n < 65536 := by
  obtain ⟨k, hk⟩ := h.eq
  obtain ⟨ds, hds, hdigits, hvalue⟩ := Text.exists_digits_of_zeros (b := 16) (by decide) k n
  have hlength : ds.length = g.length := by
    have hlengths := congrArg List.length (hk.trans hdigits)
    rw [List.length_map, List.length_map] at hlengths
    exact hlengths.symm
  calc n < 16 ^ ds.length := (Text.exists_valueAfter_iff (by decide)).mp ⟨ds, rfl, hds, hvalue⟩
    _ ≤ 16 ^ 4 := Nat.pow_le_pow_right (by decide) (by rw [hlength]; exact h.length_le)

theorem exists_writesGroup (h : List.Forall₂ WritesGroup ts ns) : ∀ t ∈ ts, ∃ n, WritesGroup t n := by
  induction h with
  | nil => exact nofun
  | cons hn _ ih => exact List.forall_mem_cons.mpr ⟨⟨_, hn⟩, ih⟩

theorem ne_nil_of_mem (h : List.Forall₂ WritesGroup ts ns) (ht : t ∈ ts) : t ≠ [] := by
  obtain ⟨n, hn⟩ := exists_writesGroup h t ht
  exact hn.spec.1

/-- The small digits of a number of 16 bits write it. -/
theorem writesGroup_toDigits (h : n < 65536) : WritesGroup (Nat.toDigits 16 n) n := by
  refine ⟨Nat.toDigits_length 16 n 4 (by decide) h, 0, ?_⟩
  obtain ⟨ds, hds, hdigits, -⟩ := Text.exists_digits (b := 16) (by decide) n
  rw [hdigits, List.map_map, List.replicate_zero, List.nil_append]
  exact List.map_congr_left fun d hd => (Text.digitChar_cases d (hds d hd)).2

end Groups

section Parts

/-- The texts, or an empty one if there are none. -/
def padded (ts : List Text) : List Text :=
  if ts = [] then [[]] else ts

theorem padded_ne_nil (ts : List Text) : padded ts ≠ [] := by
  rw [padded]
  split_ifs with h
  · exact List.cons_ne_nil _ _
  · exact h

theorem padded_of_ne_nil (h : ts ≠ []) : padded ts = ts :=
  if_neg h

theorem padded_append (ts : List Text) {us : List Text} (h : us ≠ []) : padded (ts ++ us) = ts ++ us :=
  padded_of_ne_nil (List.append_ne_nil_of_right_ne_nil ts h)

theorem padded_concat (ts : List Text) (t : Text) : padded (ts ++ [t]) = ts ++ [t] :=
  padded_append ts (List.cons_ne_nil t [])

theorem length_padded (ts : List Text) : (padded ts).length = max 1 ts.length := by
  rw [padded]
  split_ifs with h
  · rw [h]
    rfl
  · rw [Nat.max_eq_right (List.length_pos_iff.mpr h)]

/-- What does not tell an empty text from none is not changed by one. -/
theorem apply_padded {α : Type} (f : List Text → α) (h : f [[]] = f []) (ts : List Text) : f (padded ts) = f ts := by
  rw [padded]
  split_ifs with hts
  · rw [hts, h]
  · rfl

theorem join_padded (ts : List Text) : Text.join [':'] (padded ts) = Text.join [':'] ts :=
  apply_padded (Text.join [':']) rfl ts

/-- Two colons in a row have an empty text between them. -/
theorem join_gap (front back : List Text) :
    Text.join [':'] (padded front ++ [] :: padded back) =
      Text.join [':'] front ++ ':' :: ':' :: Text.join [':'] back := by
  have hempty : Text.join [':'] ([] :: padded back) = ':' :: Text.join [':'] (padded back) :=
    Text.join_append ':' (List.cons_ne_nil [] []) (padded_ne_nil back)
  rw [Text.join_append ':' (padded_ne_nil front) (List.cons_ne_nil _ _), hempty, join_padded, join_padded]

theorem mem_padded (h : t ∈ padded ts) : t = [] ∨ t ∈ ts := by
  unfold padded at h
  split_ifs at h
  · exact .inl (List.mem_singleton.mp h)
  · exact .inr h

theorem splitOn_gap (hfront : ∀ t ∈ front, ':' ∉ t) (hback : ∀ t ∈ back, ':' ∉ t) :
    Text.splitOn ':' (Text.join [':'] front ++ ':' :: ':' :: Text.join [':'] back) =
      padded front ++ [] :: padded back := by
  have hfree : ∀ {ts : List Text}, (∀ t ∈ ts, ':' ∉ t) → ∀ t ∈ padded ts, ':' ∉ t := by
    intro ts hts t ht
    rcases mem_padded ht with rfl | ht
    · exact List.not_mem_nil
    · exact hts t ht
  rw [← join_gap]
  refine Text.splitOn_join (List.append_ne_nil_of_left_ne_nil (padded_ne_nil front) _) ?_
  exact List.forall_mem_append.mpr ⟨hfree hfront, List.forall_mem_cons.mpr ⟨List.not_mem_nil, hfree hback⟩⟩

/-- The parts are the texts themselves, but four octets at their end become two groups. -/
inductive Parted : List Text → List Text → Prop
  | same {ps : List Text} (h : ∀ l ∈ ps.getLast?, '.' ∉ l) : Parted ps ps
  | dotted {ps : List Text} {q : Text} {a b c d : Nat} (hq : IPv4.Writes q a b c d) :
      Parted (ps ++ [q]) (ps ++ [Nat.toDigits 16 (a * 256 + b), Nat.toDigits 16 (c * 256 + d)])

/-- Four octets make two groups. -/
theorem halves_ofOctets {a b c d : Nat} (hle : ∀ n ∈ [a, b, c, d], n ≤ 255) :
    (IPv4.ofOctets a b c d).value / 65536 = a * 256 + b ∧ (IPv4.ofOctets a b c d).value % 65536 = c * 256 + d := by
  simp only [List.forall_mem_cons] at hle
  rw [IPv4.value_ofOctets]
  omega

/-- The parts of a text are what stands between its colons, with two groups for four octets at the end. -/
theorem parts?_eq_some_iff : parts? s = some qs ↔
    3 ≤ (Text.splitOn ':' s).length ∧ Parted (Text.splitOn ':' s) qs := by
  obtain ⟨init, last, hsplit⟩ := (List.eq_nil_or_concat' (Text.splitOn ':' s)).resolve_left (Text.splitOn_ne_nil ':' s)
  unfold parts?
  simp only [hsplit, List.getLast?_concat, List.dropLast_concat]
  split_ifs with hlength hdot
  · exact iff_of_false nofun fun h => by omega
  · have hmem : '.' ∈ last := by simpa using hdot
    simp only [Option.map_eq_some_iff, IPv4.read?_eq_some_iff]
    constructor
    · rintro ⟨_, ⟨a, b, c, d, hq, rfl⟩, rfl⟩
      obtain ⟨hhi, hlo⟩ := halves_ofOctets hq.le
      rw [hhi, hlo]
      exact ⟨by omega, .dotted hq⟩
    · rintro ⟨-, h⟩
      generalize hps : init ++ [last] = ps at h
      cases h with
      | same h =>
        subst hps
        exact absurd hmem (h last List.getLast?_concat)
      | @dotted init' q a b c d hq =>
        obtain ⟨rfl, hlast⟩ := List.append_inj' hps rfl
        obtain rfl := List.singleton_inj.mp hlast
        obtain ⟨hhi, hlo⟩ := halves_ofOctets hq.le
        exact ⟨_, ⟨a, b, c, d, hq, rfl⟩, by rw [hhi, hlo]⟩
  · have hmem : '.' ∉ last := by simpa using hdot
    rw [Option.some_inj]
    constructor
    · rintro rfl
      refine ⟨by omega, .same fun l hl => ?_⟩
      rw [List.getLast?_concat] at hl
      rwa [← Option.some.inj hl]
    · rintro ⟨-, h⟩
      generalize hps : init ++ [last] = ps at h ⊢
      cases h with
      | same h => rfl
      | dotted hq =>
        obtain ⟨rfl, hlast⟩ := List.append_inj' hps rfl
        obtain rfl := List.singleton_inj.mp hlast
        exact absurd hq.dot_mem hmem

/-- The groups of the parts are what the texts write. -/
theorem writeGroups_iff : WriteGroups ps ns ↔ ∃ qs, Parted ps qs ∧ List.Forall₂ WritesGroup qs ns := by
  constructor
  · intro h
    cases h with
    | hexadecimal h =>
      refine ⟨ps, .same fun l hl hdot => ?_, h⟩
      obtain ⟨n, hn⟩ := exists_writesGroup h l (List.mem_of_getLast? hl)
      exact absurd (hn.spec.2 '.' hdot) (by decide)
    | @dotted ts ns q a b c d h hq =>
      refine ⟨_, .dotted hq, List.rel_append h ?_⟩
      have hle := hq.le
      simp only [List.forall_mem_cons] at hle
      exact .cons (writesGroup_toDigits (by omega)) (.cons (writesGroup_toDigits (by omega)) .nil)
  · rintro ⟨qs, h, hgroups⟩
    cases h with
    | same => exact .hexadecimal hgroups
    | @dotted ts q a b c d hq =>
      have hfront := List.forall₂_take ts.length hgroups
      have hback := List.forall₂_drop ts.length hgroups
      rw [List.take_left] at hfront
      rw [List.drop_left] at hback
      have hle := hq.le
      simp only [List.forall_mem_cons] at hle
      rw [← List.take_append_drop ts.length ns]
      generalize ns.drop ts.length = back at hback
      obtain _ | ⟨hhi, _ | ⟨hlo, ⟨⟩⟩⟩ := hback
      rw [hhi.unique (writesGroup_toDigits (by omega)), hlo.unique (writesGroup_toDigits (by omega))]
      exact .dotted hfront hq

/-- Only what stands behind a gap may end in four octets. -/
theorem parted_gap_iff : Parted ps (padded front ++ [] :: padded back) ↔
    ∃ ts, ps = padded front ++ [] :: padded ts ∧ Parted ts back := by
  constructor
  · intro h
    generalize hqs : padded front ++ [] :: padded back = qs at h
    cases h with
    | same h =>
      subst hqs
      refine ⟨back, rfl, .same fun l hl => h l ?_⟩
      obtain ⟨back, rfl⟩ := List.getLast?_eq_some_iff.mp hl
      rw [padded_concat, ← List.cons_append, ← List.append_assoc, List.getLast?_concat]
      rfl
    | @dotted init q a b c d hq =>
      have hhi : Nat.toDigits 16 (a * 256 + b) ≠ [] := Nat.toDigits_ne_nil
      -- The two groups are not empty, so that they stand behind the gap.
      rcases List.eq_nil_or_concat' back with rfl | ⟨back, l, rfl⟩
      · have hends : padded front ++ [[], []] = init ++ _ := hqs
        obtain ⟨-, h⟩ := List.append_inj' hends rfl
        exact absurd (List.head_eq_of_cons_eq h).symm hhi
      rw [padded_concat] at hqs
      rcases List.eq_nil_or_concat' back with rfl | ⟨back, m, rfl⟩
      · have hends : padded front ++ [[], l] = init ++ _ := hqs
        obtain ⟨-, h⟩ := List.append_inj' hends rfl
        exact absurd (List.head_eq_of_cons_eq h).symm hhi
      rw [List.append_assoc, ← List.cons_append, ← List.append_assoc] at hqs
      obtain ⟨rfl, h⟩ := List.append_inj' hqs rfl
      rw [List.singleton_append, List.cons_eq_cons, List.singleton_inj] at h
      obtain ⟨rfl, rfl⟩ := h
      refine ⟨back ++ [q], ?_, ?_⟩
      · rw [padded_concat, List.append_assoc, List.cons_append]
      · rw [List.append_assoc]
        exact .dotted hq
  · rintro ⟨ts, rfl, h⟩
    cases h with
    | same h =>
      refine .same fun l hl => ?_
      rcases List.eq_nil_or_concat' back with rfl | ⟨back, m, rfl⟩
      · have hlast : (padded front ++ [[], []]).getLast? = some [] := by simp
        obtain rfl := Option.some.inj (hlast.symm.trans hl)
        exact List.not_mem_nil
      · rw [padded_concat, ← List.cons_append, ← List.append_assoc, List.getLast?_concat] at hl
        obtain rfl := Option.some.inj hl
        exact h m List.getLast?_concat
    | @dotted init q a b c d hq =>
      rw [padded_concat, padded_append init (List.cons_ne_nil _ _), ← List.cons_append, ← List.append_assoc, ← List.cons_append, ← List.append_assoc]
      exact .dotted hq

end Parts

section Gap

theorem acrossGap?_eq_some_iff : acrossGap? front back = some x ↔ ∃ fs bs k, List.Forall₂ WritesGroup front fs ∧
    List.Forall₂ WritesGroup back bs ∧ 0 < k ∧ fs.length + k + bs.length = 8 ∧
    x = ofGroups (fs ++ List.replicate k 0 ++ bs) := by
  by_cases hlength : front.length + back.length ≥ 8
  · refine iff_of_false (by simp [acrossGap?, hlength]) ?_
    rintro ⟨fs, bs, k, hfront, hback, hk, hsum, -⟩
    have hf := hfront.length_eq
    have hb := hback.length_eq
    omega
  · simp only [acrossGap?, hlength, if_false, Option.bind_eq_bind, Option.bind_eq_some_iff, groups?_eq_some_iff,
      Option.some_inj]
    constructor
    · rintro ⟨fs, hfront, bs, hback, rfl⟩
      have hf := hfront.length_eq
      have hb := hback.length_eq
      exact ⟨fs, bs, 8 - fs.length - bs.length, hfront, hback, by omega, by omega, rfl⟩
    · rintro ⟨fs, bs, k, hfront, hback, hk, hsum, rfl⟩
      have hf := hfront.length_eq
      have hb := hback.length_eq
      have hzeros : 8 - fs.length - bs.length = k := by omega
      exact ⟨fs, hfront, bs, hback, by rw [hzeros]⟩

theorem filter_zipIdx_eq_nil (h : ∀ t ∈ ts, t ≠ []) (i : Nat) :
    ((ts.zipIdx i).filter fun q => q.1.isEmpty) = [] := by
  rw [List.filter_eq_nil_iff]
  rintro ⟨t, j⟩ ht
  rw [List.isEmpty_iff]
  exact h t ((List.mem_zipIdx ht).2.2 ▸ List.getElem_mem _)

/-- The gap is where a text between others is empty. -/
theorem filter_zipIdx_gap (hfront : front ≠ []) (hback : back ≠ []) (hf : ∀ t ∈ front.tail, t ≠ [])
    (hb : ∀ t ∈ back.dropLast, t ≠ []) :
    ((((front ++ [] :: back).drop 1).dropLast.zipIdx 1).filter fun q => q.1.isEmpty) = [([], front.length)] := by
  obtain ⟨f, front, rfl⟩ := List.exists_cons_of_ne_nil hfront
  obtain ⟨back, l, rfl⟩ := (List.eq_nil_or_concat' back).resolve_left hback
  rw [List.tail_cons] at hf
  rw [List.dropLast_concat] at hb
  have hinner : ((f :: front ++ [] :: (back ++ [l])).drop 1).dropLast = front ++ [] :: back := by
    rw [List.cons_append, List.drop_succ_cons, List.drop_zero, ← List.cons_append, ← List.append_assoc,
      List.dropLast_concat]
  rw [hinner, List.zipIdx_append, List.zipIdx_cons, List.filter_append, filter_zipIdx_eq_nil hf,
    List.filter_cons_of_pos rfl, filter_zipIdx_eq_nil hb, List.nil_append, List.length_cons, Nat.add_comm]

/-- There are texts on both sides of the gap. -/
theorem take_gap_drop {i : Nat} (h : ((qs.drop 1).dropLast.zipIdx 1).filter (fun q => q.1.isEmpty) = [(t, i)]) :
    qs.take i ≠ [] ∧ qs.drop (i + 1) ≠ [] ∧ qs.take i ++ [] :: qs.drop (i + 1) = qs := by
  have hmem : (t, i) ∈ ((qs.drop 1).dropLast.zipIdx 1).filter fun q => q.1.isEmpty := h ▸ List.mem_singleton_self _
  obtain ⟨hinner, hempty⟩ := List.mem_filter.mp hmem
  obtain ⟨hi, hget⟩ := List.mem_zipIdx_iff_le_and_getElem?_sub.mp hinner
  rw [List.getElem?_dropLast] at hget
  split_ifs at hget with hlt
  rw [List.getElem?_drop, Nat.add_sub_cancel' hi, List.isEmpty_iff.mp hempty] at hget
  rw [List.length_drop] at hlt
  obtain ⟨hbound, hget⟩ := List.getElem?_eq_some_iff.mp hget
  refine ⟨?_, ?_, ?_⟩
  · rw [ne_eq, List.take_eq_nil_iff, not_or, ← List.length_eq_zero_iff]
    omega
  · rw [ne_eq, List.drop_eq_nil_iff]
    omega
  · rw [← hget, ← List.drop_eq_getElem_cons hbound, List.take_append_drop]

theorem drop_gap (front back : List Text) : (front ++ [] :: back).drop (front.length + 1) = back := by
  rw [List.append_cons, List.drop_left']
  rw [List.length_append, List.length_singleton]

theorem bind_ite {α β : Type} {p : Prop} [Decidable p] (o : Option α) (v : α) (f : α → Option β) :
    (if p then o.bind f else f v) = (if p then o else some v).bind f := by
  split_ifs <;> rfl

/-- A part that is empty at an end is dropped if it is the only one on its side of the gap. -/
theorem eq_padded {e : Option Text} (hne : ts ≠ []) (he : ∀ t, ts = [t] → e = some t)
    (h : (if e == some [] then (if ts.length = 1 then some [] else none) else some ts) = some front) :
    ts = padded front := by
  split_ifs at h with hempty hone
  · obtain ⟨t, rfl⟩ := List.length_eq_one_iff.mp hone
    rw [he t rfl, beq_iff_eq] at hempty
    rw [← Option.some.inj h, Option.some.inj hempty, padded, if_pos rfl]
  · rw [← Option.some.inj h, padded_of_ne_nil hne]

theorem end_padded {e : Option Text} (he : ∀ t ∈ ts, t ≠ []) (hmem : ∀ t ∈ e, t ∈ padded ts)
    (hnone : ts = [] → e = some []) :
    (if e == some [] then (if (padded ts).length = 1 then some [] else none) else some (padded ts)) = some ts := by
  by_cases hts : ts = []
  · subst hts
    rw [hnone rfl]
    rfl
  · rw [padded_of_ne_nil hts] at hmem ⊢
    rw [if_neg]
    rw [beq_iff_eq]
    intro h
    exact he [] (hmem [] h) rfl

end Gap

end DraftLint.Address.IPv6
