import DraftLint.Proofs.Contents
import DraftLint.Proofs.Plain.Labels

/-!
# Kinds of references

An entry of the references is given by the first line that it is found on, and it has the kind that is announced by
the nearest heading in front of that line.
-/

namespace DraftLint

namespace Heading

variable {t : Text} {k : Option ReferenceKind}

theorem kindAfter_of_opened? (h : opened? t = some .references) : kindAfter t k = referenceKind? t := by
  unfold opened? at h
  unfold kindAfter
  split_ifs at h ⊢ with ha he
  · cases h
  · rfl

theorem kindAfter_of_not_divides (h : divides t = false) :
    kindAfter t k = if withinPart t then referenceKind? t else k := by
  simp only [divides, Bool.or_eq_false_iff] at h
  rw [kindAfter, h.1, h.2, if_neg Bool.false_ne_true, if_neg Bool.false_ne_true]

/-- The line is a heading within a part: a leader of two dots or more in front of a number makes it a line of a
table of contents. -/
def subtitle (t : Text) : Bool :=
  subsection.leads t && leaderDots t < 2

end Heading

namespace Plain

section Nearest

/-- The line is a heading of the references, or one within a part. -/
def isHeading (within : Text → Bool) (l : Nat × Text) : Bool :=
  Heading.opened? (Text.trim l.2) == some .references || within (Text.trim l.2)

/-- The last heading among these lines of the body. -/
def nearestHeading? (within : Text → Bool) (body : List (Nat × Text)) : Option (Nat × Text) :=
  (body.filter (isHeading within)).getLast?

/-- The kind of references that holds behind these lines of the body. -/
def kindBehind (body : List (Nat × Text)) : Option ReferenceKind :=
  body.foldl (fun k l => Heading.kindAfter (Text.trim l.2) k) none

variable {within within' : Text → Bool} {body : List (Nat × Text)} {h l : Nat × Text}

theorem nearestHeading?_concat (body : List (Nat × Text)) (l : Nat × Text) :
    nearestHeading? within (body ++ [l]) = if isHeading within l then some l else nearestHeading? within body := by
  unfold nearestHeading?
  rw [List.filter_append]
  by_cases hl : isHeading within l = true <;> simp [hl]

theorem kindBehind_concat (body : List (Nat × Text)) (l : Nat × Text) :
    kindBehind (body ++ [l]) = Heading.kindAfter (Text.trim l.2) (kindBehind body) := by
  simp [kindBehind]

/-- Within the references the kind is the one that the nearest heading announces. -/
theorem kindBehind_eq (h : lastOpened body = some .references) :
    kindBehind body = (nearestHeading? Heading.withinPart body).bind fun l =>
      Heading.referenceKind? (Text.trim l.2) := by
  induction body using List.reverseRecOn with
  | nil => cases h
  | append_singleton body l ih =>
    rw [lastOpened_concat] at h
    rw [kindBehind_concat, nearestHeading?_concat]
    split_ifs at h with hd
    · rw [Heading.kindAfter_of_opened? h, if_pos (by simp [isHeading, h])]
      rfl
    · have hopened : Heading.opened? (Text.trim l.2) ≠ some .references :=
        fun ho => hd (Heading.divides_of_opened? ho)
      have hheading : isHeading Heading.withinPart l = Heading.withinPart (Text.trim l.2) := by
        simp [isHeading, hopened]
      rw [Heading.kindAfter_of_not_divides (Bool.not_eq_true _ ▸ hd), hheading, ih h]
      split_ifs <;> rfl

/-- Fewer lines count as headings, but the nearest one still does. -/
theorem nearestHeading?_of_imp (h : nearestHeading? within body = some l)
    (himp : ∀ k ∈ body, isHeading within' k → isHeading within k) (hl : isHeading within' l) :
    nearestHeading? within' body = some l := by
  induction body using List.reverseRecOn with
  | nil => cases h
  | append_singleton body k ih =>
    rw [nearestHeading?_concat] at h ⊢
    split_ifs at h with hk
    · obtain rfl := Option.some.inj h
      rw [if_pos hl]
    · rw [if_neg fun hk' => hk (himp k (by simp) hk')]
      exact ih h fun k hk => himp k (List.mem_append_left _ hk)

theorem isSome_nearestHeading? (hl : l ∈ body) (hheading : isHeading within l) :
    (nearestHeading? within body).isSome := by
  rw [nearestHeading?, List.getLast?_isSome]
  exact List.ne_nil_of_mem (List.mem_filter.mpr ⟨hl, hheading⟩)

theorem mem_of_nearestHeading? (h : nearestHeading? within body = some l) : l ∈ body ∧ isHeading within l :=
  List.mem_filter.mp (List.mem_of_getLast? h)

/-- No heading comes behind the nearest one. -/
theorem eq_or_lt_of_nearestHeading? (hb : InOrder body) (h : nearestHeading? within body = some l) {k : Nat × Text}
    (hk : k ∈ body) (hheading : isHeading within k) : k = l ∨ k.1 < l.1 := by
  obtain ⟨front, hfront⟩ := List.getLast?_eq_some_iff.mp h
  have horder : InOrder (front ++ [l]) := hfront ▸ List.Pairwise.filter _ hb
  have hmem := List.mem_filter.mpr ⟨hk, hheading⟩
  rw [hfront, List.mem_append, List.mem_singleton] at hmem
  rcases hmem with hmem | rfl
  · exact .inr ((List.pairwise_append.mp horder).2.2 k hmem l (List.mem_singleton_self l))
  · exact .inl rfl

end Nearest

section Giving

/-- The text is found on the line, which is visible and stands at such a place. -/
def FoundOn (find : Text → List Text) (place : Nat → Prop) (v : Text) (l : Nat × Text) : Prop :=
  Text.isVisible l.2 ∧ v ∈ find (Text.trim l.2) ∧ place l.1

/-- The line is the first of these that the text is found on. -/
def FirstOn (find : Text → List Text) (lines : List (Nat × Text)) (place : Nat → Prop) (v : Text) (l : Nat × Text) :
    Prop :=
  l ∈ lines ∧ FoundOn find place v l ∧ ∀ k ∈ lines, FoundOn find place v k → l.1 ≤ k.1

instance (find : Text → List Text) (place : Nat → Prop) [DecidablePred place] (v : Text) (l : Nat × Text) :
    Decidable (FoundOn find place v l) :=
  inferInstanceAs (Decidable (_ ∧ _))

instance (find : Text → List Text) (lines : List (Nat × Text)) (place : Nat → Prop) [DecidablePred place] (v : Text)
    (l : Nat × Text) : Decidable (FirstOn find lines place v l) :=
  inferInstanceAs (Decidable (_ ∧ _))

/-- Each entry has the kind that holds on the first line that its value is found on. -/
def Given (find : Text → List Text) (lines : List (Nat × Text)) (place : Nat → Prop)
    (kindOn : Nat → Option ReferenceKind) (es : List Entry) : Prop :=
  ∀ e ∈ es, ∃ l, FirstOn find lines place e.value l ∧ e.kind = kindOn l.1

variable {find : Text → List Text} {n : Nat} {lines : List (Nat × Text)} {place place' : Nat → Prop}
  {kindOn kindOn' : Nat → Option ReferenceKind} {kind : Option ReferenceKind} {es : List Entry} {e : Entry}
  {v : Text} {vs : List Text} {l : Nat × Text}

theorem mem_addEntry_iff {e' : Entry} :
    e ∈ Items.addEntry es e' ↔ e ∈ es ∨ e = e' ∧ e.value ∉ es.map Entry.value := by
  have hany : es.any (·.value == e'.value) = true ↔ e'.value ∈ es.map Entry.value := by simp
  unfold Items.addEntry
  split_ifs with h
  · rw [hany] at h
    constructor
    · exact Or.inl
    · rintro (he | ⟨rfl, hnew⟩)
      · exact he
      · exact absurd h hnew
  · rw [hany] at h
    rw [List.mem_append, List.mem_singleton]
    constructor
    · rintro (he | rfl)
      · exact .inl he
      · exact .inr ⟨rfl, h⟩
    · exact Or.imp_right And.left

/-- An entry is an old one, or one of the kind whose value is new. -/
theorem mem_of_mem_foldl_addEntry (h : e ∈ vs.foldl (fun es v => Items.addEntry es ⟨v, kind⟩) es) :
    e ∈ es ∨ e.kind = kind ∧ e.value ∈ vs ∧ e.value ∉ es.map Entry.value := by
  induction vs generalizing es with
  | nil => exact .inl h
  | cons v vs ih =>
    rcases ih h with he | ⟨hkind, hmem, hnew⟩
    · rcases mem_addEntry_iff.mp he with he | ⟨rfl, hnew⟩
      · exact .inl he
      · exact .inr ⟨rfl, List.mem_cons_self .., hnew⟩
    · refine .inr ⟨hkind, List.mem_cons_of_mem _ hmem, fun hold => hnew ?_⟩
      rw [Items.map_value_addEntry, Items.mem_addText]
      exact .inl hold

theorem FirstOn.concat (h : FirstOn find lines place v l) (hb : Text.Below n lines)
    (hplace : ∀ k ≤ n, place k ↔ place' k) (line : Text) :
    FirstOn find (lines ++ [(n + 1, line)]) place' v l := by
  obtain ⟨hl, ⟨hvisible, hfound, hp⟩, hfirst⟩ := h
  refine ⟨List.mem_append_left _ hl, ⟨hvisible, hfound, (hplace _ (hb l hl)).mp hp⟩, ?_⟩
  intro k hk hkfound
  rcases List.mem_append.mp hk with hk | hk
  · exact hfirst k hk ⟨hkfound.1, hkfound.2.1, (hplace _ (hb k hk)).mpr hkfound.2.2⟩
  · rw [List.mem_singleton.mp hk]
    exact Nat.le_succ_of_le (hb l hl)

/-- What is found on the next line for the first time is given by that line. -/
theorem Given.concat (h : Given find lines place kindOn es) (hkeeps : Keeps find lines place (es.map Entry.value))
    (line : Text) (here : Bool) (hb : Text.Below n lines) (hplace : ∀ k ≤ n, place k ↔ place' k)
    (hkind : ∀ k ≤ n, kindOn k = kindOn' k) (hhere : here = true ↔ place' (n + 1)) (hnext : kind = kindOn' (n + 1)) :
    Given find (lines ++ [(n + 1, line)]) place' kindOn'
      (if Text.isVisible line then
        (if here then find (Text.trim line) else []).foldl (fun es v => Items.addEntry es ⟨v, kind⟩) es
      else es) := by
  have hold : ∀ e ∈ es, ∃ l, FirstOn find (lines ++ [(n + 1, line)]) place' e.value l ∧ e.kind = kindOn' l.1 := by
    intro e he
    obtain ⟨l, hl, hek⟩ := h e he
    exact ⟨l, hl.concat hb hplace line, hek.trans (hkind l.1 (hb l hl.1))⟩
  intro e he
  split_ifs at he with hvisible hc
  · rcases mem_of_mem_foldl_addEntry he with he | ⟨hek, hfound, hnew⟩
    · exact hold e he
    · refine ⟨(n + 1, line), ⟨by simp, ⟨hvisible, hfound, hhere.mp hc⟩, ?_⟩, hek.trans hnext⟩
      intro k hk hkfound
      rcases List.mem_append.mp hk with hk | hk
      · refine absurd ((hkeeps.mem_iff _).mpr ⟨k, hk, hkfound.1, hkfound.2.1, ?_⟩) hnew
        exact (hplace _ (hb k hk)).mpr hkfound.2.2
      · rw [List.mem_singleton.mp hk]
  · exact hold e he
  · exact hold e he

end Giving

namespace Scan

variable {n num : Nat} {lines : List (Nat × Text)} {line stripped next : Text} {s : Scan}

theorem subsection_readBody :
    (s.readBody num line stripped).subsection = Heading.kindAfter stripped s.subsection := by
  by_cases hd : Heading.divides stripped = true
  · rw [readBody_of_divides hd]
  · rw [readBody_of_not_divides (Bool.not_eq_true _ ▸ hd)]

theorem subsection_readLine (hf : Fronted n s) (hb : Text.Below n lines)
    (h : s.subsection = kindBehind (s.bodyLines lines)) (line next : Text) :
    (s.readLine (n + 1) line next).subsection =
      kindBehind ((s.readLine (n + 1) line next).bodyLines (lines ++ [(n + 1, line)])) := by
  cases moves_readLine hf hb line next with
  | body hl hs hlines =>
    rw [hlines, kindBehind_concat, ← h, hs, subsection_readBody]
    rfl
  | rest hsame hlines hnone =>
    rw [hlines, ← h]
    exact hsame.subsection

theorem Reached.subsection_eq {ls : List Text} (h : Reached ls s) :
    s.subsection = kindBehind (s.bodyLines (Text.numberFrom 1 ls)) :=
  h.overLines (motive := fun lines s => s.subsection = kindBehind (s.bodyLines lines)) rfl
    fun h hb ih => subsection_readLine h.fronted hb ih

theorem Reached.keeps {ls : List Text} (h : Reached ls s) (c : Listed) :
    Keeps c.find (Text.numberFrom 1 ls) (FollowsReferences (s.bodyLines (Text.numberFrom 1 ls)))
      ((c.entries s.items).map Entry.value) := by
  cases c with
  | rfcs => exact ⟨h.sorted.mem_listed, h.sorted.listed_nodup⟩
  | labels => exact h.keepsLabels

theorem Reached.given {ls : List Text} (h : Reached ls s) (c : Listed) :
    Given c.find (Text.numberFrom 1 ls) (FollowsReferences (s.bodyLines (Text.numberFrom 1 ls)))
      (fun num => kindBehind (linesBefore num (s.bodyLines (Text.numberFrom 1 ls)))) (c.entries s.items) := by
  refine h.overLines (motive := fun lines s =>
    Given c.find lines (FollowsReferences (s.bodyLines lines))
      (fun num => kindBehind (linesBefore num (s.bodyLines lines))) (c.entries s.items)) ?_ ?_
  · cases c <;> exact fun e he => nomatch he
  · intro ls s h hb ih line next
    have hf := h.fronted
    have hentries : c.entries (s.readLine (ls.length + 1) line next).items =
        if Text.isVisible line then
          (if s.setting.inReferences then c.find (Text.trim line) else []).foldl
            (fun es v => Items.addEntry es ⟨v, s.subsection⟩) (c.entries s.items)
        else c.entries s.items := by
      rw [items_readLine _ _ _ hf.part_ne_header, apply_ite c.entries, c.entries_addLine]
      rfl
    rw [hentries]
    refine ih.concat (h.keeps c) line _ hb ?_ ?_ (h.sorted.inReferences_iff hf hb line next) ?_
    · exact fun k hk => (followsReferences_readLine hf hb (Nat.le_succ_of_le hk)).symm
    · intro k hk
      rw [← linesBefore_readLine hf hb (Nat.le_succ_of_le hk)]
    · rw [h.subsection_eq, ← linesBefore_of_lt (below_bodyLines hb) (Nat.lt_succ_self ls.length),
        ← linesBefore_readLine hf hb (Nat.le_refl _)]

end Scan

namespace Document

/-- The line gives the entry: of all lines that are read as references it is the first one that the value is found
on. -/
def Gives (d : Document) (c : Listed) (e : Entry) (l : Nat × Text) : Prop :=
  e ∈ c.entries d.scan.items ∧ FirstOn c.find d.lines d.ReadAsReferences e.value l

instance (d : Document) (c : Listed) (e : Entry) (l : Nat × Text) : Decidable (d.Gives c e l) :=
  inferInstanceAs (Decidable (_ ∧ _))

/-- The nearest heading in front of a line of the references. -/
def headingOf? (within : Text → Bool) (d : Document) (num : Nat) : Option (Nat × Text) :=
  nearestHeading? within (linesBefore num d.bodyLines)

/-- What the references give has the kind that the nearest heading announces, where lines of a table of contents are
the only ones worded as headings that count for none. -/
def KindsFollowHeadings (d : Document) : Prop :=
  ∀ c e l, d.Gives c e l → d.InReferences l.1 →
    ∃ h, d.headingOf? Heading.subtitle l.1 = some h ∧
      (Heading.opened? (Text.trim h.2) = some .references ∨ d.InReferences h.1) ∧
      e.kind = Heading.referenceKind? (Text.trim h.2)

/-- Within the references there is a heading in front of every line, and the nearest one stands over them or in
them. -/
theorem exists_headingOf? {d : Document} (hb : InOrder d.bodyLines) {num : Nat} (h : d.InReferences num)
    (within : Text → Bool) :
    ∃ l, d.headingOf? within num = some l ∧
      (Heading.opened? (Text.trim l.2) = some .references ∨ d.InReferences l.1) := by
  obtain ⟨top, htop, hlt, hopened, hnone⟩ := h
  have hfirst : top ∈ linesBefore num d.bodyLines := mem_linesBefore.mpr ⟨htop, hlt⟩
  have hheading : isHeading within top := by simp [isHeading, hopened]
  obtain ⟨l, hl⟩ := Option.isSome_iff_exists.mp (isSome_nearestHeading? hfirst hheading)
  have hnum := (mem_linesBefore.mp (mem_of_nearestHeading? hl).1).2
  refine ⟨l, hl, ?_⟩
  rcases eq_or_lt_of_nearestHeading? (hb.linesBefore num) hl hfirst hheading with rfl | hbehind
  · exact .inl hopened
  · exact .inr ⟨top, htop, hbehind, hopened, fun e he hlo hhi => hnone e he hlo (by omega)⟩

/-- Unless it ends in one full stop and a number, the nearest heading is what the line is read by. -/
theorem headingOf?_withinPart {d : Document} {num : Nat} {l : Nat × Text}
    (h : d.headingOf? Heading.subtitle num = some l) (hdots : Heading.leaderDots (Text.trim l.2) ≠ 1) :
    d.headingOf? Heading.withinPart num = some l := by
  have hsub : ∀ t : Text, Heading.withinPart (Text.trim t) → Heading.subtitle (Text.trim t) := by
    intro t ht
    obtain ⟨hleads, hzero⟩ := (Heading.withinPart_iff rfl).mp ht
    simp [Heading.subtitle, hleads, hzero]
  refine nearestHeading?_of_imp h (fun k _ hk => ?_) ?_
  · rw [isHeading, Bool.or_eq_true] at hk ⊢
    exact hk.imp_right (hsub k.2)
  · have hl := (mem_of_nearestHeading? h).2
    rw [isHeading, Bool.or_eq_true] at hl ⊢
    refine hl.imp_right fun hsubtitle => ?_
    rw [Heading.subtitle, Bool.and_eq_true, decide_eq_true_eq] at hsubtitle
    exact (Heading.withinPart_iff rfl).mpr ⟨hsubtitle.1, by omega⟩

section OfText

variable (fileName : Option Text) (t : Text)

theorem given_ofText (c : Listed) :
    Given c.find (ofText fileName t).lines (ofText fileName t).ReadAsReferences
      (fun num => kindBehind (linesBefore num (ofText fileName t).bodyLines))
      (c.entries (ofText fileName t).scan.items) := by
  have h := (Scan.Reached.readLines (Text.lines (prepare t))).given c
  rw [← Scan.bodyLines_closePart (Text.numberedLines (prepare t)).length] at h
  have hplace : FollowsReferences (ofText fileName t).bodyLines = (ofText fileName t).ReadAsReferences :=
    funext fun num => propext (followsReferences_iff (inOrder_bodyLines fileName t) num)
  rw [items_ofText, ← hplace]
  exact h

/-- The kind of an entry is that of the nearest heading in front of the line that gives it. -/
theorem kind_of_gives {c : Listed} {e : Entry} {l : Nat × Text} (h : (ofText fileName t).Gives c e l) :
    e.kind = ((ofText fileName t).headingOf? Heading.withinPart l.1).bind fun k =>
      Heading.referenceKind? (Text.trim k.2) := by
  obtain ⟨he, hl⟩ := h
  obtain ⟨k, hk, hkind⟩ := given_ofText fileName t c e he
  have hsame : k.1 = l.1 := Nat.le_antisymm (hk.2.2 l hl.1 hl.2.1) (hl.2.2 k hk.1 hk.2.1)
  have hfollows := (followsReferences_iff (inOrder_bodyLines fileName t) l.1).mpr hl.2.1.2.2
  rw [hkind, hsame]
  exact kindBehind_eq hfollows

end OfText

/-- Every entry of any text is given by a line, and has the kind that the nearest heading announces. -/
theorem kinds_ofText (fileName : Option Text) (t : Text) :
    let d := ofText fileName t
    (∀ c, ∀ e ∈ c.entries d.scan.items, ∃ l, d.Gives c e l) ∧
    (∀ c e l, d.Gives c e l → e.kind = (d.headingOf? Heading.withinPart l.1).bind fun h =>
      Heading.referenceKind? (Text.trim h.2)) ∧
    (∀ num, d.InReferences num → ∃ h, d.headingOf? Heading.withinPart num = some h ∧
      (Heading.opened? (Text.trim h.2) = some .references ∨ d.InReferences h.1)) ∧
    (d.KindsFollowHeadings ↔ ∀ c e l h, d.Gives c e l → d.InReferences l.1 →
      d.headingOf? Heading.subtitle l.1 = some h → Heading.leaderDots (Text.trim h.2) = 1 → e.kind = none) := by
  intro d
  have hb := inOrder_bodyLines fileName t
  refine ⟨fun c e he => ?_, fun c e l => kind_of_gives fileName t, fun num hnum => exists_headingOf? hb hnum _, ?_, ?_⟩
  · obtain ⟨l, hl, -⟩ := given_ofText fileName t c e he
    exact ⟨l, he, hl⟩
  · intro hfollow c e l h hgives hin hh hone
    obtain ⟨k, hk, -, hkind⟩ := hfollow c e l hgives hin
    obtain rfl : k = h := Option.some.inj (hk.symm.trans hh)
    rw [hkind]
    exact Heading.referenceKind?_eq_none_of_leaderDots (by omega)
  · intro hnone c e l hgives hin
    obtain ⟨h, hh, hplace⟩ := exists_headingOf? hb hin Heading.subtitle
    refine ⟨h, hh, hplace, ?_⟩
    by_cases hone : Heading.leaderDots (Text.trim h.2) = 1
    · rw [hnone c e l h hgives hin hh hone]
      exact (Heading.referenceKind?_eq_none_of_leaderDots (by omega)).symm
    · rw [kind_of_gives fileName t hgives, headingOf?_withinPart hh hone]
      rfl

/-- References with a heading that ends in the number of a version. -/
def versionedHeading : Text :=
  "Front\n\n\nTitle\n\n9. References\n9.1. Normative References\n9.2. TLS 1.3\n   [RFC2222]\n".toList

/-- Such a heading is passed over, so the kind before it goes on. -/
theorem not_kindsFollowHeadings : ¬(ofText none versionedHeading).KindsFollowHeadings := by
  intro h
  obtain ⟨k, hk, -, hkind⟩ := h .rfcs ⟨"2222".toList, some .normative⟩ (9, "   [RFC2222]".toList)
    (by decide +kernel) (by decide +kernel)
  have hheading : (ofText none versionedHeading).headingOf? Heading.subtitle 9 = some (8, "9.2. TLS 1.3".toList) := by
    decide +kernel
  obtain rfl := Option.some.inj (hheading.symm.trans hk)
  exact absurd hkind (by decide +kernel)

end Document
end Plain
end DraftLint
