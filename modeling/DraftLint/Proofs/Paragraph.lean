import DraftLint.Proofs.Keywords
import DraftLint.Proofs.Pattern.Folding

/-!
# Texts around the paragraph

Where the paragraph that gives the requirement levels their meaning stands between two texts without it, leaving it out
leaves the two texts.  No wording is the beginning of another, and none has its own first word further inside, so that
none overlaps the paragraph in part.  None has two spaces in a row, so that none arises where the paragraph was.
-/

namespace DraftLint.RequirementLevel

open Pattern Text

namespace Wording

section Spellings

/-- What follows the opening of the paragraph in small letters. -/
def middles : List Text :=
  joined ([] :: [small " "]) <| joined ([] :: [small "\"NOT RECOMMENDED\", "]) [small closing]

def starts : List Text :=
  joined [small opening] middles

def endings2119 : List Text :=
  joined ([] :: [small " BCP 14,"]) <| joined [small " RFC"] <| joined ([] :: [small " "]) <| joined [small "2119"] <|
    ".,;".toList.map fun c => [foldCase c]

def endingsByTitle : List Text :=
  [small " \"Key words for use in RFCs to Indicate Requirement Levels\" [RFC2119]"]

def endings8174 : List Text :=
  joined [small " BCP"] <| joined ([] :: [small " "]) [small "14 [RFC2119] [RFC8174]"]

def endings : List Text :=
  endings2119 ++ (endingsByTitle ++ endings8174)

/-- All spellings of the paragraph in small letters, and some more. -/
def spellings : List Text :=
  joined starts endings

theorem bounded_olderStart : olderStart.Bounded :=
  (bounded_lit _).seq <| Bounded.seq (Bounded.maybe trivial) <| (bounded_lit _).maybe.seq (bounded_lit _)

theorem bounded_pattern (w : Wording) : w.pattern.Bounded := by
  have hspace : (maybe space).Bounded := Bounded.maybe trivial
  cases w with
  | rfc2119 =>
    exact Bounded.ignoreCase <| bounded_olderStart.seq <| (bounded_lit _).maybe.seq <| (bounded_lit _).seq <|
      hspace.seq <| (bounded_lit _).seq trivial
  | rfc2119ByTitle => exact Bounded.ignoreCase <| bounded_olderStart.seq (bounded_lit _)
  | rfc8174 =>
    exact Bounded.ignoreCase <| (bounded_lit _).seq <| (bounded_lit _).seq <| (bounded_lit _).seq <|
      (bounded_lit _).seq <| hspace.seq (bounded_lit _)

theorem spells_space : space.Spells [small " "] :=
  spells_lit " "

theorem spells_olderStart : olderStart.Spells starts :=
  (spells_lit _).seq <| spells_space.maybe.seq <| (spells_lit _).maybe.seq (spells_lit _)

/-- The newest wording begins like an older one that has all of its optional parts. -/
theorem newest_subset_starts :
    joined [small opening] (joined [small " \"NOT RECOMMENDED\", "] [small closing]) ⊆ starts := by
  have hspace : [small " \"NOT RECOMMENDED\", "] = joined [small " "] [small "\"NOT RECOMMENDED\", "] :=
    rfl
  have hrest : ∀ ts : List Text, ts ⊆ [] :: ts := fun ts => List.subset_cons_self _ ts
  rw [hspace, joined_assoc]
  exact joined_subset (List.Subset.refl _) (joined_subset (hrest _) (joined_subset (hrest _) (List.Subset.refl _)))

/-- Whatever a wording reads is one of the spellings. -/
theorem mem_spellings {w : Wording} {r r' : Reach} {t : Text} (h : Reads w.pattern r t r') :
    t.map foldCase ∈ spellings := by
  have hstarts : ∀ {us : List Text}, us ⊆ endings → joined starts us ⊆ spellings := fun hsubset =>
    joined_subset (List.Subset.refl _) hsubset
  cases w with
  | rfc2119 =>
    have hspells := spells_olderStart.seq <| (spells_lit " BCP 14,").maybe.seq <| (spells_lit " RFC").seq <|
      spells_space.maybe.seq <| (spells_lit "2119").seq (spells_of ".,;")
    exact hstarts (List.subset_append_left _ _) (hspells r t r' h)
  | rfc2119ByTitle =>
    have hspells := spells_olderStart.seq
      (spells_lit " \"Key words for use in RFCs to Indicate Requirement Levels\" [RFC2119]")
    refine hstarts ?_ (hspells r t r' h)
    exact List.subset_append_of_subset_right _ (List.subset_append_left _ _)
  | rfc8174 =>
    have hspells := (spells_lit opening).seq <| (spells_lit " \"NOT RECOMMENDED\", ").seq <| (spells_lit closing).seq <|
      (spells_lit " BCP").seq <| spells_space.maybe.seq (spells_lit "14 [RFC2119] [RFC8174]")
    have hmem := hspells r t r' h
    rw [← joined_assoc [small " \"NOT RECOMMENDED\", "], ← joined_assoc] at hmem
    refine joined_subset newest_subset_starts ?_ hmem
    exact List.subset_append_of_subset_right _ (List.subset_append_right _ _)

/-- No wording is the beginning of another. -/
theorem prefixFree_spellings : PrefixFree spellings := by
  have hparts : PrefixFree middles ∧ PrefixFree endings := by decide +kernel
  exact ((prefixFree_singleton _).joined hparts.1).joined hparts.2

/-- The first word of every wording. -/
def firstWord : Text := ['t', 'h', 'e']

def spaces : Text := [' ', ' ']

-- Being clear of a text is kept when texts are put together, so it is checked on the parts of the spellings.
theorem clearOf_parts : (firstWord <+: small opening ∧ ClearOf firstWord (small opening).tail ∧
    ClearOf spaces (small opening)) ∧ (∀ s ∈ middles, ClearOf firstWord s ∧ ClearOf spaces s) ∧
    ∀ s ∈ endings, ClearOf firstWord s ∧ ClearOf spaces s := by
  decide +kernel

variable {s : Text}

theorem exists_parts (hs : s ∈ spellings) : ∃ m ∈ middles, ∃ e ∈ endings, s = small opening ++ (m ++ e) := by
  rw [spellings, starts, joined_assoc] at hs
  obtain ⟨o, ho, rest, hrest, rfl⟩ := mem_joined.mp hs
  obtain ⟨m, hm, e, he, rfl⟩ := mem_joined.mp hrest
  exact ⟨m, hm, e, he, by rw [List.mem_singleton.mp ho]⟩

theorem firstWord_begins (hs : s ∈ spellings) : firstWord <+: s := by
  obtain ⟨m, -, e, -, rfl⟩ := exists_parts hs
  exact clearOf_parts.1.1.trans (List.prefix_append _ _)

/-- No wording has two spaces in a row, nor ends in a space. -/
theorem clearOf_spaces (hs : s ∈ spellings) : ClearOf spaces s := by
  obtain ⟨m, hm, e, he, rfl⟩ := exists_parts hs
  exact clearOf_parts.1.2.2.append ((clearOf_parts.2.1 m hm).2.append (clearOf_parts.2.2 e he).2)

/-- No wording begins with what another one ends with. -/
theorem clearOf_firstWord (hs : s ∈ spellings) : ClearOf firstWord s.tail := by
  obtain ⟨m, hm, e, he, rfl⟩ := exists_parts hs
  have hne : small opening ≠ [] := List.ne_nil_of_length_pos <|
    Nat.lt_of_lt_of_le (by decide) clearOf_parts.1.1.length_le
  rw [List.tail_append_of_ne_nil hne]
  exact clearOf_parts.1.2.1.append ((clearOf_parts.2.1 m hm).1.append (clearOf_parts.2.2 e he).1)

end Spellings

end Wording

section Places

open Wording

variable {a b t u v x L B R : Text} {n n' : Nat}

/-- Some wording reads the first `n` characters. -/
def BeginsWith (v : Text) (n : Nat) : Prop :=
  ∃ w : Wording, ∃ row ∈ w.pattern.rows, row.length = n ∧ Cursor.sees row v

/-- No wording is read anywhere. -/
def Free (t : Text) : Prop :=
  ∀ u v n, t = u ++ v → ¬BeginsWith v n

theorem mem_every (w : Wording) : w ∈ every := by
  cases w <;> decide

theorem hasParagraph_eq_false_iff : hasParagraph t = false ↔ Free t := by
  rw [hasParagraph, List.any_eq_false]
  constructor
  · rintro h u v n rfl ⟨w, row, hrow, -, hsees⟩
    exact h w (mem_every w) ((occursIn_iff_exists_row (bounded_pattern w)).mpr ⟨u, v, rfl, row, hrow, hsees⟩)
  · intro h w _ hoccurs
    obtain ⟨u, v, ht, row, hrow, hsees⟩ := (occursIn_iff_exists_row (bounded_pattern w)).mp hoccurs
    exact h u v row.length ht ⟨w, row, hrow, rfl, hsees⟩

theorem BeginsWith.append (h : BeginsWith v n) (x : Text) : BeginsWith (v ++ x) n := by
  obtain ⟨w, row, hrow, rfl, hsees⟩ := h
  exact ⟨w, row, hrow, rfl, by rwa [Cursor.sees_append_right (length_le_of_sees hsees)]⟩

theorem BeginsWith.of_append (h : BeginsWith (v ++ x) n) (hn : n ≤ v.length) : BeginsWith v n := by
  obtain ⟨w, row, hrow, rfl, hsees⟩ := h
  exact ⟨w, row, hrow, rfl, by rwa [Cursor.sees_append_right hn] at hsees⟩

theorem BeginsWith.exists_spelling (h : BeginsWith v n) : ∃ s ∈ spellings, s.length = n ∧ s <+: v.map foldCase := by
  obtain ⟨w, row, hrow, rfl, hsees⟩ := h
  refine ⟨_, mem_spellings (reads_of_row (u := []) (bounded_pattern w) hrow hsees []), ?_, ?_⟩
  · rw [List.length_map, List.length_take_of_le (length_le_of_sees hsees)]
  · exact (List.take_prefix _ v).map foldCase

theorem BeginsWith.unique (h : BeginsWith v n) (h' : BeginsWith v n') : n = n' := by
  obtain ⟨s, hs, rfl, hthere⟩ := h.exists_spelling
  obtain ⟨s', hs', rfl, hthere'⟩ := h'.exists_spelling
  rw [prefixFree_spellings.eq_of_begins hs hs' hthere hthere']

theorem BeginsWith.firstWord_begins (h : BeginsWith v n) : firstWord <+: v.map foldCase := by
  obtain ⟨s, hs, -, hthere⟩ := h.exists_spelling
  exact (Wording.firstWord_begins hs).trans hthere

/-- What a wording reads beyond a text. -/
theorem BeginsWith.exists_beyond (h : BeginsWith (u ++ v) n) (hn : u.length < n) :
    ∃ x, u.map foldCase ++ x ∈ spellings ∧ x ≠ [] ∧ x <+: v.map foldCase := by
  obtain ⟨s, hs, rfl, hthere⟩ := h.exists_spelling
  rw [List.map_append] at hthere
  have hlength : (u.map foldCase).length ≤ s.length := by
    rw [List.length_map]
    exact Nat.le_of_lt hn
  obtain ⟨x, rfl⟩ := List.prefix_of_prefix_length_le (List.prefix_append _ _) hthere hlength
  refine ⟨x, hs, ?_, (List.prefix_append_right_inj _).mp hthere⟩
  rintro rfl
  simp at hn

theorem not_beginsWith_spaces (hn : u.length < n) (hv : spaces <+: v.map foldCase) : ¬BeginsWith (u ++ v) n := by
  intro h
  obtain ⟨x, hx, hne, hthere⟩ := h.exists_beyond hn
  exact (clearOf_spaces hx).not_begins hne hthere hv

theorem not_beginsWith_firstWord (hne : u ≠ []) (hn : u.length < n) (hv : firstWord <+: v.map foldCase) :
    ¬BeginsWith (u ++ v) n := by
  intro h
  obtain ⟨x, hx, hne', hthere⟩ := h.exists_beyond hn
  obtain ⟨c, u, rfl⟩ := List.exists_cons_of_ne_nil hne
  exact (clearOf_firstWord hx).not_begins hne' hthere hv

theorem Free.of_append_left (h : Free (u ++ v)) : Free u := by
  rintro x y n rfl hbegins
  exact h x (y ++ v) n (List.append_assoc x y v) (hbegins.append v)

theorem Free.space_cons (h : Free v) : Free (' ' :: v) := by
  intro x y n hxy hbegins
  cases x with
  | nil =>
    have hfirst := hbegins.firstWord_begins
    rw [← List.nil_append y, ← hxy] at hfirst
    exact absurd (List.cons_prefix_cons.mp hfirst).1 (by decide)
  | cons c x => exact h x y n (List.cons.inj hxy).2 hbegins

/-- No wording arises where three spaces stand between two texts. -/
theorem Free.append_spaces (ha : Free a) (hb : Free b) : Free (a ++ ' ' :: ' ' :: ' ' :: b) := by
  intro u v n huv hbegins
  rcases List.append_eq_append_iff.mp huv with ⟨y, rfl, hy⟩ | ⟨x, rfl, rfl⟩
  · exact hb.space_cons.space_cons.space_cons y v n hy hbegins
  · rcases Nat.lt_or_ge x.length n with hlt | hle
    · exact not_beginsWith_spaces hlt ⟨' ' :: b.map foldCase, rfl⟩ hbegins
    · exact ha u x n rfl (hbegins.of_append hle)

/-- A wording is read only where the paragraph begins, and it reads the whole of it. -/
theorem eq_of_beginsWith (hL : Free L) (hR : Free R) (hB : BeginsWith B B.length) (huv : L ++ (B ++ R) = u ++ v)
    (h : BeginsWith v n) : u = L ∧ n = B.length := by
  have hBR : BeginsWith (B ++ R) B.length := hB.append R
  rcases List.append_eq_append_iff.mp huv with ⟨y, rfl, hy⟩ | ⟨x, rfl, rfl⟩
  · cases y with
    | nil =>
      rw [List.nil_append] at hy
      rw [hy] at hBR
      exact ⟨List.append_nil L, h.unique hBR⟩
    | cons c y =>
      -- The wording would begin in the paragraph or behind it.
      rcases List.append_eq_append_iff.mp hy with ⟨z, -, rfl⟩ | ⟨z, rfl, rfl⟩
      · exact absurd h (hR z v n rfl)
      · cases z with
        | nil => exact absurd h (hR [] R n rfl)
        | cons d z =>
          have hinside : (c :: y).length < (c :: y ++ d :: z).length := by simp
          rw [List.append_assoc] at hBR
          exact absurd hBR (not_beginsWith_firstWord (List.cons_ne_nil c y) hinside h.firstWord_begins)
  · cases x with
    | nil => exact ⟨(List.append_nil u).symm, h.unique hBR⟩
    | cons c x =>
      -- The wording would begin in front of the paragraph, and reach into it or not.
      rcases Nat.lt_or_ge (c :: x).length n with hlt | hle
      · exact absurd h (not_beginsWith_firstWord (List.cons_ne_nil c x) hlt hBR.firstWord_begins)
      · exact absurd (h.of_append hle) (hL u (c :: x) n rfl)

end Places

section Removal

open Wording

variable {t u v L B R : Text} {w : Wording} {ws : List Wording} {m : Match} {fuel : Nat}

theorem beginsWith_of_matchAt (h : w.pattern.matchAt fuel (.amid u v) = some m) : BeginsWith v m.text.length := by
  obtain ⟨x, hread⟩ := reads_of_matchAt h
  obtain ⟨row, hrow, hlength, hsees⟩ := hread.exists_row (bounded_pattern w)
  have htext : m.text = x := by
    rw [Match.text, start_of_matchAt h]
    exact hread.between_eq
  exact ⟨w, row, hrow, by rw [htext, hlength], hsees⟩

/-- In a text without the paragraph nothing is left out. -/
theorem foldl_substitute_of_free (new : Text) (ht : Free t) (ws : List Wording) :
    ws.foldl (fun t w => w.pattern.substitute new t) t = t := by
  induction ws with
  | nil => rfl
  | cons w ws ih =>
    have hself : w.pattern.substitute new t = t := substitute_eq_self fun u v huv _ => by
      rw [Option.eq_none_iff_forall_ne_some]
      intro m hm
      exact ht u v _ huv (beginsWith_of_matchAt hm)
    rw [List.foldl_cons, hself, ih]

theorem withoutParagraph_eq_self (h : hasParagraph t = false) : withoutParagraph t = t :=
  foldl_substitute_of_free [' '] (hasParagraph_eq_false_iff.mp h) every

section Between

variable (hL : Free L) (hR : Free R) (hB : BeginsWith B B.length)
include hL hR hB

theorem matchAt_eq_none_of_ne (huv : L ++ (B ++ R) = u ++ v) (hu : u ≠ L) :
    w.pattern.matchAt fuel (.amid u v) = none := by
  rw [Option.eq_none_iff_forall_ne_some]
  intro m hm
  exact hu (eq_of_beginsWith hL hR hB huv (beginsWith_of_matchAt hm)).1

/-- A wording that matches where the paragraph begins is replaced as a whole. -/
theorem substitute_of_matchAt (new : Text)
    (hm : w.pattern.matchAt (L ++ (B ++ R)).length (.amid L (B ++ R)) = some m) :
    w.pattern.substitute new (L ++ (B ++ R)) = L ++ (new ++ R) := by
  generalize hfuel : (L ++ (B ++ R)).length = fuel at hm
  have hne : B ≠ [] := by
    rintro rfl
    exact absurd hB.firstWord_begins (by decide)
  have hstop : m.stop.pos = L.length + B.length := by
    rw [(text_prefix_of_matchAt hm).2, (eq_of_beginsWith hL hR hB rfl (beginsWith_of_matchAt hm)).2]
  have hbefore := replaceAfter_kept w.pattern new fuel [] L (B ++ R) fun x y hxy hy => by
    refine matchAt_eq_none_of_ne hL hR hB (by rw [hxy, List.nil_append, List.append_assoc]) fun hx => hy ?_
    have hxx : x ++ y = x := hxy.symm.trans hx.symm
    exact List.append_right_eq_self.mp hxx
  have hbehind := replaceAfter_kept w.pattern new fuel (L ++ B) R [] fun x y hxy _ => by
    refine matchAt_eq_none_of_ne hL hR hB (by rw [hxy, List.append_nil]; simp) fun hx => hne ?_
    rw [List.append_assoc, List.append_right_eq_self] at hx
    exact (List.append_eq_nil_iff.mp hx).1
  rw [List.append_nil, replaceAfter_nil, List.append_nil] at hbehind
  rw [substitute_eq_replaceAfter, hfuel, hbefore, List.nil_append, replaceAfter_found w.pattern new L B R hne hm hstop,
    hbehind]

/-- The wordings of a list together replace the paragraph if one of them matches where it begins. -/
theorem foldl_substitute (new : Text) (hnew : Free (L ++ (new ++ R)))
    (hw : ∃ w ∈ ws, (w.pattern.matchAt (L ++ (B ++ R)).length (.amid L (B ++ R))).isSome) :
    ws.foldl (fun t w => w.pattern.substitute new t) (L ++ (B ++ R)) = L ++ (new ++ R) := by
  induction ws with
  | nil =>
    obtain ⟨w, hw, -⟩ := hw
    cases hw
  | cons w ws ih =>
    rw [List.foldl_cons]
    cases hm : w.pattern.matchAt (L ++ (B ++ R)).length (.amid L (B ++ R)) with
    | some m => rw [substitute_of_matchAt hL hR hB new hm, foldl_substitute_of_free new hnew]
    | none =>
      have hself : w.pattern.substitute new (L ++ (B ++ R)) = L ++ (B ++ R) := substitute_eq_self fun u v huv _ => by
        by_cases hu : u = L
        · obtain rfl := hu
          rwa [← List.append_cancel_left huv]
        · exact matchAt_eq_none_of_ne hL hR hB huv hu
      rw [hself]
      refine ih ?_
      obtain ⟨w', hw', hsome⟩ := hw
      rcases List.mem_cons.mp hw' with rfl | hw'
      · rw [hm] at hsome
        cases hsome
      · exact ⟨w', hw', hsome⟩

end Between

/-- Where the paragraph stands between two texts, a space is left in its place. -/
theorem withoutParagraph_between (hL : Free L) (hR : Free R) (hLR : Free (L ++ ' ' :: R)) (hB : w.pattern.fits B) :
    withoutParagraph (L ++ (B ++ R)) = L ++ ' ' :: R := by
  obtain ⟨row, hrow, hlength, hsees⟩ := exists_row_of_fits (bounded_pattern w) hB
  have hrest : Cursor.sees row (B ++ R) := by rwa [Cursor.sees_append_right (Nat.le_of_eq hlength)]
  refine foldl_substitute hL hR ⟨w, row, hrow, hlength, hsees⟩ [' '] hLR ⟨w, mem_every w, ?_⟩
  exact (isSome_matchAt_iff (bounded_pattern w) (by simp)).mpr ⟨row, hrow, hrest⟩

end Removal

section Used

variable {a b B : Text} {w : Wording}

theorem free_nil : Free [] :=
  hasParagraph_eq_false_iff.mp (by decide +kernel)

theorem used_of_not_hasParagraph (h : hasParagraph a = false) : used a = (keyword.scan a).map Match.text := by
  rw [used, withoutParagraph_eq_self h]

theorem used_paragraph (hB : w.pattern.fits B) : used B = [] := by
  have hwithout := withoutParagraph_between free_nil free_nil free_nil.space_cons hB
  rw [List.nil_append, List.append_nil, List.nil_append] at hwithout
  rw [used, hwithout]
  decide +kernel

/-- The paragraph neither adds keywords to those of the texts around it nor hides any. -/
theorem used_around_paragraph (ha : hasParagraph a = false) (hb : hasParagraph b = false) (hB : w.pattern.fits B) :
    used (a ++ ' ' :: (B ++ ' ' :: b)) = used a ++ used b ∧ used B = [] := by
  have hspaces : Free (a ++ ' ' :: ' ' :: ' ' :: b) :=
    (hasParagraph_eq_false_iff.mp ha).append_spaces (hasParagraph_eq_false_iff.mp hb)
  have hsplit : a ++ ' ' :: ' ' :: ' ' :: b = (a ++ [' ']) ++ ' ' :: (' ' :: b) := by simp
  rw [hsplit] at hspaces
  have hright : Free (' ' :: b) := (hasParagraph_eq_false_iff.mp hb).space_cons
  have hwithout := withoutParagraph_between hspaces.of_append_left hright hspaces hB
  rw [← hsplit, List.append_assoc] at hwithout
  refine ⟨?_, used_paragraph hB⟩
  calc used (a ++ ' ' :: (B ++ ' ' :: b))
      = (keyword.scan (a ++ ' ' :: ' ' :: ' ' :: b)).map Match.text := by rw [used, ← hwithout]; rfl
    _ = (keyword.scan a).map Match.text ++ (keyword.scan b).map Match.text := map_text_scan_append_spaces a b
    _ = used a ++ used b := by rw [used_of_not_hasParagraph ha, used_of_not_hasParagraph hb]

/-- A keyword in front of the newest wording, and a negation behind it. -/
theorem used_around_paragraph_negation :
    hasParagraph "Clients MUST".toList = false ∧ hasParagraph "NOT REQUIRED".toList = false ∧
    Wording.rfc8174.pattern.fits (Wording.opening.toList ++ " \"not recommended\", ".toList ++
      Wording.closing.toList ++ " BCP 14 [RFC2119] [RFC8174]".toList) ∧
    used ("Clients MUST".toList ++ ' ' :: ((Wording.opening.toList ++ " \"not recommended\", ".toList ++
      Wording.closing.toList ++ " BCP 14 [RFC2119] [RFC8174]".toList) ++ ' ' :: "NOT REQUIRED".toList)) =
      ["MUST".toList, "NOT REQUIRED".toList] := by
  have ha : hasParagraph "Clients MUST".toList = false := by decide +kernel
  have hb : hasParagraph "NOT REQUIRED".toList = false := by decide +kernel
  have hB : Wording.rfc8174.pattern.fits (Wording.opening.toList ++ " \"not recommended\", ".toList ++
      Wording.closing.toList ++ " BCP 14 [RFC2119] [RFC8174]".toList) := by decide +kernel
  have hwords : used "Clients MUST".toList ++ used "NOT REQUIRED".toList = ["MUST".toList, "NOT REQUIRED".toList] := by
    decide +kernel
  exact ⟨ha, hb, hB, (used_around_paragraph ha hb hB).1.trans hwords⟩

end Used

end DraftLint.RequirementLevel
