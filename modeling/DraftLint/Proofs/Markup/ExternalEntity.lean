import DraftLint.Markup.ExternalEntity
import DraftLint.Proofs.Pattern.Preference
import DraftLint.Proofs.Pattern.Replacing
import DraftLint.Proofs.Text.Removal

/-!
# What is left of external entities

Declarations are taken out in one pass from the left, and then the references in one pass for each entity.  No
stretch that is kept holds a declaration or a reference, but what is kept on both sides of something that was
taken out may come to one.  The octets are free of external entities exactly if that has not happened.
-/

namespace DraftLint

open Text (Leaves Across)

namespace Markup.ExternalEntity

open Pattern

section Octets

theorem encode_eq_gather {t : Text} (h : ∀ c ∈ t, c.toNat < 0x80) : Utf8.encode t = gather t := by
  induction t with
  | nil => rfl
  | cons c t ih =>
    obtain ⟨hc, ht⟩ := List.forall_mem_cons.mp h
    have hle : c.val.toNat ≤ 127 := Nat.le_of_lt_succ hc
    have hchar : String.utf8EncodeChar c = [UInt8.ofNat c.toNat] := by
      simp only [String.utf8EncodeChar, if_pos hle]
      rfl
    have hrest := ih ht
    rw [Utf8.encode] at hrest ⊢
    rw [List.flatMap_cons, hchar, hrest]
    rfl

theorem decodeLossy_gather {t : Text} (h : ∀ c ∈ t, c.toNat < 0x80) : Utf8.decodeLossy (gather t) = t := by
  induction t with
  | nil => rfl
  | cons c t ih =>
    obtain ⟨hc, ht⟩ := List.forall_mem_cons.mp h
    have hoctet : (UInt8.ofNat c.toNat).toNat = c.toNat := by
      rw [UInt8.toNat_ofNat']
      omega
    have hfirst : Utf8.first (UInt8.ofNat c.toNat) (gather t) = .char c 1 := by
      simp only [Utf8.first, hoctet, if_pos hc, Char.ofNat_toNat]
    have hgather : gather (c :: t) = UInt8.ofNat c.toNat :: gather t := rfl
    have hrest := ih ht
    rw [Utf8.decodeLossy] at hrest ⊢
    rw [hgather, Utf8.piecesFrom, hfirst]
    simp only [Utf8.Piece.size, Nat.sub_self, List.map_cons, hrest]

theorem toNat_ofNat_octet (b : UInt8) : (Char.ofNat b.toNat).toNat = b.toNat := by
  have hlt := b.toNat_lt
  have hvalid : b.toNat.isValidChar := by
    left
    omega
  rw [Char.ofNat, dif_pos hvalid]
  rfl

theorem gather_spread (bs : Octets) : gather (spread bs) = bs := by
  rw [gather, spread, List.map_map]
  refine List.map_id'' (fun b => ?_) bs
  simp [toNat_ofNat_octet]

theorem spread_gather {t : Text} (h : ∀ c ∈ t, c.toNat < 0x100) : spread (gather t) = t := by
  rw [gather, spread, List.map_map]
  refine (List.map_congr_left fun c hc => ?_).trans (List.map_id t)
  have hlt := h c hc
  simp [Nat.mod_eq_of_lt hlt]

theorem toNat_lt_of_mem_spread {bs : Octets} {c : Char} (h : c ∈ spread bs) : c.toNat < 0x100 := by
  obtain ⟨b, -, rfl⟩ := List.mem_map.mp h
  rw [toNat_ofNat_octet]
  exact b.toNat_lt

end Octets

section Declaration

def nameOctet : CharSet :=
  .or .letter (.or .digit (.of "-._"))

/-- A declaration as it stands in a text, with the blanks between its parts. -/
structure Declaration where
  name : Text
  kind : Text
  url : Text
  beforeName : Text
  beforeKind : Text
  beforeUrl : Text
  atEnd : Text
  name_ne_nil : name ≠ []
  name_octets : ∀ c ∈ name, nameOctet c
  kind_mem : kind ∈ ["SYSTEM".toList, "PUBLIC".toList]
  url_unquoted : ∀ c ∈ url, (CharSet.only '"').not c
  beforeName_ne_nil : beforeName ≠ []
  beforeName_blank : ∀ c ∈ beforeName, octetBlank c
  beforeKind_ne_nil : beforeKind ≠ []
  beforeKind_blank : ∀ c ∈ beforeKind, octetBlank c
  beforeUrl_ne_nil : beforeUrl ≠ []
  beforeUrl_blank : ∀ c ∈ beforeUrl, octetBlank c
  atEnd_blank : ∀ c ∈ atEnd, octetBlank c

def Declaration.text (d : Declaration) : Text :=
  "<!ENTITY".toList ++ (d.beforeName ++ (d.name ++ (d.beforeKind ++ (d.kind ++ (d.beforeUrl ++
    ("\"".toList ++ (d.url ++ ("\"".toList ++ (d.atEnd ++ ">".toList)))))))))

theorem Declaration.text_ne_nil (d : Declaration) : d.text ≠ [] :=
  List.cons_ne_nil _ _

theorem declaration_eq : declaration =
    .seq (literal "<!ENTITY".toList) (.seq (.atLeastOnce (.one octetBlank))
      (.seq (.group 1 (.atLeastOnce (.one nameOctet))) (.seq (.atLeastOnce (.one octetBlank))
        (.seq (.group 2 (.alt (literal "SYSTEM".toList) (literal "PUBLIC".toList)))
          (.seq (.atLeastOnce (.one octetBlank)) (.seq (literal "\"".toList)
            (.seq (.group 3 (.many (.one (CharSet.only '"').not))) (.seq (literal "\"".toList)
              (.seq (.many (.one octetBlank)) (literal ">".toList)))))))))) :=
  rfl

theorem direct_declaration : declaration.Direct := by
  simp [declaration_eq, Direct, atLeastOnce, direct_literal]

theorem accepts_declaration (d : Declaration) : declaration.Accepts d.text := by
  have hname := accepts_atLeastOnce_one d.name_ne_nil d.name_octets
  have hkind : (Pattern.alt (literal "SYSTEM".toList) (literal "PUBLIC".toList)).Accepts d.kind := by
    have hmem := d.kind_mem
    simp only [List.mem_cons, List.not_mem_nil, or_false] at hmem
    rcases hmem with hk | hk
    · rw [hk]
      exact (accepts_literal _).left
    · rw [hk]
      exact (accepts_literal _).right
  have hplace := (accepts_literal "\"".toList).seq (((accepts_many_one d.url_unquoted).group 3).seq
    ((accepts_literal "\"".toList).seq ((accepts_many_one d.atEnd_blank).seq (accepts_literal ">".toList))))
  exact (accepts_literal "<!ENTITY".toList).seq
    ((accepts_atLeastOnce_one d.beforeName_ne_nil d.beforeName_blank).seq ((hname.group 1).seq
      ((accepts_atLeastOnce_one d.beforeKind_ne_nil d.beforeKind_blank).seq ((hkind.group 2).seq
        ((accepts_atLeastOnce_one d.beforeUrl_ne_nil d.beforeUrl_blank).seq hplace)))))

/-- What is read as a declaration is one. -/
theorem exists_declaration_of_reads {r r' : Reach} {w : Text} (h : Reads declaration r w r') :
    ∃ d : Declaration, d.text = w := by
  rw [declaration_eq] at h
  obtain ⟨_, _, _, rfl, hopen, h⟩ := h.of_seq
  obtain ⟨b₁, _, _, rfl, hb₁, h⟩ := h.of_seq
  obtain ⟨name, _, _, rfl, hname, h⟩ := h.of_seq
  obtain ⟨b₂, _, _, rfl, hb₂, h⟩ := h.of_seq
  obtain ⟨kind, _, _, rfl, hkind, h⟩ := h.of_seq
  obtain ⟨b₃, _, _, rfl, hb₃, h⟩ := h.of_seq
  obtain ⟨_, _, _, rfl, hquote, h⟩ := h.of_seq
  obtain ⟨url, _, _, rfl, hurl, h⟩ := h.of_seq
  obtain ⟨_, _, _, rfl, hquote', h⟩ := h.of_seq
  obtain ⟨b₄, _, _, rfl, hb₄, hclose⟩ := h.of_seq
  obtain rfl := hopen.of_literal
  obtain rfl := hquote.of_literal
  obtain rfl := hquote'.of_literal
  obtain rfl := hclose.of_literal
  obtain ⟨hb₁, hblank₁⟩ := hb₁.of_atLeastOnce_one
  obtain ⟨hb₂, hblank₂⟩ := hb₂.of_atLeastOnce_one
  obtain ⟨hb₃, hblank₃⟩ := hb₃.of_atLeastOnce_one
  obtain ⟨_, hname, -⟩ := hname.of_group
  obtain ⟨hname, hoctets⟩ := hname.of_atLeastOnce_one
  obtain ⟨_, hkind, -⟩ := hkind.of_group
  obtain ⟨_, hurl, -⟩ := hurl.of_group
  have hmem : kind ∈ ["SYSTEM".toList, "PUBLIC".toList] := by
    cases hkind with
    | left h => simp [h.of_literal]
    | right h => simp [h.of_literal]
  exact ⟨⟨name, kind, url, b₁, b₂, b₃, b₄, hname, hoctets, hmem, hurl.of_many_one, hb₁, hblank₁, hb₂, hblank₂,
    hb₃, hblank₃, hb₄.of_many_one⟩, rfl⟩

variable {u v : Text} {fuel : Nat}

theorem isSome_matchAt_declaration (h : v.length ≤ fuel) :
    (declaration.matchAt fuel (.amid u v)).isSome ↔ ∃ d : Declaration, d.text <+: v := by
  constructor
  · intro hsome
    obtain ⟨m, hm⟩ := Option.isSome_iff_exists.mp hsome
    obtain ⟨w, hw⟩ := reads_of_matchAt hm
    obtain ⟨d, rfl⟩ := exists_declaration_of_reads hw
    exact ⟨d, _, hw.advance.1.symm⟩
  · rintro ⟨d, v, rfl⟩
    exact (accepts_declaration d).isSome_matchAt direct_declaration h

/-- A text has a match in it if it has a declaration in it. -/
theorem occursIn_declaration {t : Text} : declaration.occursIn t ↔ ∃ d : Declaration, d.text <:+: t := by
  rw [occursIn_iff]
  constructor
  · rintro ⟨u, v, rfl, h⟩
    obtain ⟨d, hd⟩ := (isSome_matchAt_declaration (by simp)).mp h
    exact ⟨d, hd.isInfix.trans (List.suffix_append u v).isInfix⟩
  · rintro ⟨d, u, v, rfl⟩
    refine ⟨u, d.text ++ v, List.append_assoc .., ?_⟩
    exact (isSome_matchAt_declaration (by simp)).mpr ⟨d, List.prefix_append d.text v⟩

theorem removes_declaration (n : Nat) :
    Text.Removes (fun w => ∃ d : Declaration, d.text = w) n (declaration.replaceAfter [] n) := by
  refine ⟨fun _ => replaceAfter_nil _, fun b u v hu => ?_, fun b v hv hfirst => ?_⟩
  · refine replaceAfter_kept declaration [] n b u v fun x y hx hy => matchAt_eq_none fun w r hw => ?_
    exact hu x y hx hy w (exists_declaration_of_reads hw) ⟨_, hw.advance.1.symm⟩
  · obtain ⟨_, ⟨d, rfl⟩, hd⟩ := hfirst
    have hsome : (declaration.matchAt n (.amid b v)).isSome := (isSome_matchAt_declaration hv).mpr ⟨d, hd⟩
    obtain ⟨m, hm⟩ := Option.isSome_iff_exists.mp hsome
    obtain ⟨w, hw⟩ := reads_of_matchAt hm
    obtain ⟨hrest, hpos⟩ := hw.advance
    obtain ⟨d', rfl⟩ := exists_declaration_of_reads hw
    have hsplit : v = d'.text ++ m.stop.rest := hrest
    refine ⟨d'.text, m.stop.rest, hsplit, ⟨d', rfl⟩, ?_⟩
    rw [hsplit] at hm ⊢
    exact replaceAfter_found declaration [] b d'.text m.stop.rest d'.text_ne_nil hm hpos

theorem exists_leaves_substitute (t : Text) :
    ∃ ps, Leaves (fun w => ∃ d : Declaration, d.text = w) t ps ∧ ps.flatten = declaration.substitute [] t ∧
      ∀ p ∈ ps, ∀ d : Declaration, ¬d.text <:+: p := by
  obtain ⟨ps, hps, hflat, hall⟩ := (removes_declaration t.length).exists_leaves
    (by rintro _ ⟨d, rfl⟩; exact d.text_ne_nil) [] (Nat.le_refl t.length)
  refine ⟨ps, hps, ?_, fun p hp d => hall p hp d.text ⟨d, rfl⟩⟩
  rw [hflat, substitute_eq_replaceAfter]

end Declaration

section Names

theorem lt_of_nameOctet {c : Char} (h : nameOctet c) : c.toNat < 0x80 := by
  have hrange : 'z'.toNat = 0x7A ∧ 'Z'.toNat = 0x5A ∧ '9'.toNat = 0x39 := by decide
  have hmarks : "-._".toList = ['-', '.', '_'] := rfl
  simp only [nameOctet, CharSet.or, CharSet.letter, CharSet.lower, CharSet.upper, CharSet.digit, CharSet.range,
    CharSet.of, hmarks, List.contains_iff_mem, List.mem_cons, List.not_mem_nil, or_false, Bool.or_eq_true,
    Bool.and_eq_true, decide_eq_true_eq] at h
  rcases h with (h | h) | h | rfl | rfl | rfl
  · omega
  · omega
  · omega
  · decide
  · decide
  · decide

/-- The names that are recorded are those of declarations. -/
theorem nameOctet_of_mem {bs : Octets} {e : ExternalEntity} (h : e ∈ (extract bs).2) : ∀ c ∈ e.name, nameOctet c := by
  obtain ⟨m, hm, rfl⟩ := List.mem_map.mp h
  have hencloses : declaration.Encloses fun n p => n = 1 → p = .atLeastOnce (.one nameOctet) := by
    simp [declaration_eq, Encloses, atLeastOnce, encloses_literal]
  have hgroup : ∀ c ∈ (m.group? 1).getD [], nameOctet c := by
    cases hg : m.group? 1 with
    | none => simp
    | some u =>
      obtain ⟨p, s, s', hp, hread⟩ := group?_of_mem_scan hencloses hm hg
      rw [hp rfl] at hread
      exact hread.of_atLeastOnce_one.2
  have hname : (ofMatch m).name = (m.group? 1).getD [] :=
    decodeLossy_gather fun c hc => lt_of_nameOctet (hgroup c hc)
  rwa [hname]

theorem reference_ne_nil (e : ExternalEntity) : e.reference ≠ [] :=
  List.cons_ne_nil _ _

theorem reference_ascii {bs : Octets} {e : ExternalEntity} (h : e ∈ (extract bs).2) :
    ∀ c ∈ e.reference, c.toNat < 0x80 := by
  intro c hc
  simp only [reference, List.cons_append, List.mem_cons, List.mem_append, List.not_mem_nil, or_false] at hc
  rcases hc with rfl | hc | rfl
  · decide
  · exact lt_of_nameOctet (nameOctet_of_mem h c hc)
  · decide

/-- The octets of a reference stand in octets if its characters stand in theirs. -/
theorem encode_infix_iff {bs cs : Octets} {e : ExternalEntity} (h : e ∈ (extract bs).2) :
    Utf8.encode e.reference <:+: cs ↔ e.reference <:+: spread cs := by
  have hascii := reference_ascii h
  rw [encode_eq_gather hascii]
  constructor
  · intro hin
    have hspread := List.IsInfix.map (fun b : UInt8 => Char.ofNat b.toNat) hin
    have hreference := spread_gather fun c hc => Nat.lt_trans (hascii c hc) (by decide)
    rw [← hreference]
    exact hspread
  · intro hin
    have hgather := List.IsInfix.map (fun c : Char => UInt8.ofNat c.toNat) hin
    rw [← gather_spread cs]
    exact hgather

end Names

section Extract

/-- What should not be left: a declaration, or a reference to one of the entities. -/
inductive External (es : List ExternalEntity) : Text → Prop
  | declaration (d : Declaration) : External es d.text
  | reference {e : ExternalEntity} (he : e ∈ es) : External es e.reference

/-- What is taken out: a declaration, or what is a reference when something is taken out of it. -/
inductive TakenOut (es : List ExternalEntity) : Text → Prop
  | declaration (d : Declaration) : TakenOut es d.text
  | reference {e : ExternalEntity} {r : Text} {rs : List Text} (he : e ∈ es) (h : Leaves (TakenOut es) r rs)
    (hrs : rs.flatten = e.reference) : TakenOut es r

variable {es es' : List ExternalEntity} {t : Text} {ps : List Text}

theorem External.ne_nil {w : Text} (h : External es w) : w ≠ [] := by
  cases h with
  | declaration d => exact d.text_ne_nil
  | reference he => exact reference_ne_nil _

/-- What is left when the references to some entities are taken out as well, entity by entity. -/
theorem exists_leaves_foldl (hes : ∀ e ∈ es', e ∈ es) (h : Leaves (TakenOut es) t ps) :
    ∃ qs, Leaves (TakenOut es) t qs ∧
      qs.flatten = es'.foldl (fun t e => Text.replaceAll e.reference [] t) ps.flatten ∧
      ∀ q ∈ qs, (∃ p ∈ ps, q <:+: p) ∧ ∀ e ∈ es', ¬e.reference <:+: q := by
  induction es' generalizing ps with
  | nil => exact ⟨ps, h, rfl, fun q hq => ⟨⟨q, hq, List.infix_rfl⟩, List.forall_mem_nil _⟩⟩
  | cons e es' ih =>
    obtain ⟨he, hes⟩ := List.forall_mem_cons.mp hes
    obtain ⟨qs, hqs, hqflat, hclean⟩ := Text.exists_leaves_replaceAll (reference_ne_nil e) ps.flatten
    obtain ⟨rs, hrs, hrflat, hin⟩ := h.trans hqs fun s ss hs hss => .reference he hs hss
    obtain ⟨os, hos, hoflat, hall⟩ := ih hes hrs
    refine ⟨os, hos, ?_, fun o ho => ?_⟩
    · rw [hoflat, hrflat, hqflat, List.foldl_cons]
    obtain ⟨⟨r, hr, hor⟩, hrest⟩ := hall o ho
    obtain ⟨⟨p, hp, hrp⟩, q, hq, hrq⟩ := hin r hr
    refine ⟨⟨p, hp, hor.trans hrp⟩, List.forall_mem_cons.mpr ⟨fun heo => ?_, hrest⟩⟩
    exact hclean q hq (heo.trans (hor.trans hrq))

/-- What is left of the octets is free of external entities, and nothing more is taken out of it. -/
structure Complete (bs : Octets) : Prop where
  no_declaration : declaration.occursIn (spread (extract bs).1) = false
  no_reference : ∀ e ∈ (extract bs).2, ¬Utf8.encode e.reference <:+: (extract bs).1
  settled : extract (extract bs).1 = ((extract bs).1, [])

/-- Octets without a declaration are kept as they are. -/
theorem extract_eq_self {bs : Octets} (h : declaration.occursIn (spread bs) = false) : extract bs = (bs, []) := by
  have hnone : ∀ u v, spread bs = u ++ v → declaration.matchAt (spread bs).length (.amid u v) = none := by
    intro u v huv
    rw [← Option.not_isSome_iff_eq_none]
    intro hsome
    rw [occursIn_iff.mpr ⟨u, v, huv, hsome⟩] at h
    cases h
  have hscan : declaration.scan (spread bs) = [] := by
    rw [List.eq_nil_iff_forall_not_mem]
    intro m hm
    obtain ⟨u, v, huv, hmatch⟩ := exists_amid_of_mem_scan hm
    rw [hnone u v huv] at hmatch
    cases hmatch
  have hsubstitute : declaration.substitute [] (spread bs) = spread bs :=
    substitute_eq_self fun u v huv _ => hnone u v huv
  simp only [extract, hscan, hsubstitute, List.map_nil, List.foldl_nil, gather_spread]

theorem complete_iff_not_external {bs : Octets} :
    Complete bs ↔ ∀ w, External (extract bs).2 w → ¬w <:+: spread (extract bs).1 := by
  constructor
  · rintro ⟨hdeclaration, hreference, -⟩ w hw hin
    cases hw with
    | declaration d =>
      rw [occursIn_declaration.mpr ⟨d, hin⟩] at hdeclaration
      cases hdeclaration
    | reference he => exact hreference _ he ((encode_infix_iff he).mpr hin)
  · intro h
    have hnone : declaration.occursIn (spread (extract bs).1) = false := by
      rw [← Bool.not_eq_true, occursIn_declaration]
      rintro ⟨d, hd⟩
      exact h _ (.declaration d) hd
    refine ⟨hnone, fun e he hin => ?_, extract_eq_self hnone⟩
    exact h _ (.reference he) ((encode_infix_iff he).mp hin)

/-- The octets that are kept are stretches of the text between what was taken out, which hold no declaration and
no reference.  The result is free of them exactly if none was put together over a joint. -/
theorem complete_iff (bs : Octets) :
    ∃ kept : List Text, Leaves (TakenOut (extract bs).2) (spread bs) kept ∧ kept.flatten = spread (extract bs).1 ∧
      (∀ piece ∈ kept, ∀ w, External (extract bs).2 w → ¬w <:+: piece) ∧
      (Complete bs ↔
        ∀ a w b, spread (extract bs).1 = a ++ w ++ b → External (extract bs).2 w → ¬Across kept a w) := by
  obtain ⟨ps, hps, hpflat, hclean⟩ := exists_leaves_substitute (spread bs)
  have htaken : Leaves (TakenOut (extract bs).2) (spread bs) ps :=
    hps.mono (by rintro _ ⟨d, rfl⟩; exact .declaration d)
  obtain ⟨kept, hkept, hflat, hall⟩ := exists_leaves_foldl (fun e he => he) htaken
  have hspread : kept.flatten = spread (extract bs).1 := by
    rw [hpflat] at hflat
    have hgather : (extract bs).1 = gather kept.flatten := by
      rw [hflat]
      rfl
    rw [hgather, spread_gather fun c hc => toNat_lt_of_mem_spread (hkept.subset hc)]
  have hpieces : ∀ piece ∈ kept, ∀ w, External (extract bs).2 w → ¬w <:+: piece := by
    intro piece hpiece w hw hin
    obtain ⟨⟨p, hp, hpp⟩, hreference⟩ := hall piece hpiece
    cases hw with
    | declaration d => exact hclean p hp d (hin.trans hpp)
    | reference he => exact hreference _ he hin
  refine ⟨kept, hkept, hspread, hpieces, ?_⟩
  rw [complete_iff_not_external]
  constructor
  · intro h a w b hab hw _
    exact h w hw ⟨a, b, hab.symm⟩
  · rintro h w hw ⟨a, b, hab⟩
    rw [← hspread] at h hab
    rcases Text.infix_or_across hab.symm hw.ne_nil with ⟨p, hp, hin⟩ | hacross
    · exact hpieces p hp w hw hin
    · exact h a w b hab.symm hw hacross

/-- What is kept before and after a declaration can be a declaration, and what is kept before and after a
reference a reference. -/
theorem not_complete :
    ¬Complete (Utf8.encode "<!ENT<!ENTITY a SYSTEM \"x\">ITY b SYSTEM \"y\">".toList) ∧
      ¬Complete (Utf8.encode "<!ENTITY a SYSTEM \"x\">&a&a;;".toList) := by
  constructor
  · intro h
    exact absurd h.no_declaration (by decide +kernel)
  · intro h
    exact absurd h.no_reference (by decide +kernel)

end Extract

end Markup.ExternalEntity
end DraftLint
