import DraftLint.Proofs.Attempts
import DraftLint.Proofs.Markup.Growth
import DraftLint.Proofs.Pattern.Groups
import DraftLint.Proofs.Text.Distinct
import DraftLint.Rules.CrossReferences
import DraftLint.Verdict
import Mathlib.Data.List.DropRight

/-!
# Cross-references and what they may refer to

A cross-reference has no target, or one that is lost, or one that is resolved by an element or by the label in the name of
a file that the document pulls in.  The nits list those of the first two sorts.  Only the last line of the name is looked at
for a label.
-/

namespace DraftLint

namespace Text

variable {part tail t rest s : Text}

/-- What stands behind the first `part` of a text. -/
def behind? (part : Text) : Text → Option Text
  | [] => if part.isEmpty then some [] else none
  | c :: t => if startsWith part (c :: t) then some ((c :: t).drop part.length) else behind? part t

/-- The text without `tail` at its end. -/
def withoutEnd? (tail t : Text) : Option Text :=
  if endsWith tail t then some (t.take (t.length - tail.length)) else none

theorem withoutEnd?_eq_some_iff : withoutEnd? tail t = some s ↔ t = s ++ tail := by
  rw [withoutEnd?]
  constructor
  · intro h
    split_ifs at h with hends
    obtain ⟨front, rfl⟩ := List.isSuffixOf_iff_suffix.mp hends
    rw [← Option.some.inj h, List.length_append, Nat.add_sub_cancel, List.take_left]
  · rintro rfl
    have hends : endsWith tail (s ++ tail) := List.isSuffixOf_iff_suffix.mpr (List.suffix_append s tail)
    rw [if_pos hends, List.length_append, Nat.add_sub_cancel, List.take_left]

theorem behind?_of_prefix (part w : Text) : behind? part (part ++ w) = some w := by
  have hstart : startsWith part (part ++ w) := List.isPrefixOf_iff_prefix.mpr (List.prefix_append part w)
  cases ht : part ++ w with
  | nil =>
    obtain ⟨rfl, rfl⟩ := List.append_eq_nil_iff.mp ht
    rfl
  | cons c t => rw [behind?, ← ht, if_pos hstart, List.drop_left]

theorem behind?_cons {c : Char} (h : ¬part <+: c :: t) : behind? part (c :: t) = behind? part t := by
  have hstart : ¬startsWith part (c :: t) := fun hstart => h (List.isPrefixOf_iff_prefix.mp hstart)
  rw [behind?, if_neg hstart]

/-- It is the first `part` of the text, and nothing else, in front of the rest. -/
theorem behind?_eq_some_iff : behind? part t = some rest ↔
    ∃ front, t = front ++ (part ++ rest) ∧ ∀ u w, t = u ++ (part ++ w) → front.length ≤ u.length := by
  induction t with
  | nil =>
    constructor
    · intro h
      rw [behind?] at h
      split_ifs at h with hempty
      obtain rfl := Option.some.inj h
      rw [List.isEmpty_iff.mp hempty]
      exact ⟨[], rfl, fun _ _ _ => Nat.zero_le _⟩
    · rintro ⟨front, ht, -⟩
      obtain ⟨-, hnil⟩ := List.append_eq_nil_iff.mp ht.symm
      obtain ⟨rfl, rfl⟩ := List.append_eq_nil_iff.mp hnil
      rfl
  | cons c t ih =>
    by_cases hstart : part <+: c :: t
    · obtain ⟨w, hw⟩ := hstart
      rw [← hw, behind?_of_prefix, Option.some.injEq]
      constructor
      · rintro rfl
        exact ⟨[], rfl, fun _ _ _ => Nat.zero_le _⟩
      · rintro ⟨front, ht, hfirst⟩
        obtain rfl := List.eq_nil_of_length_eq_zero (Nat.le_zero.mp (hfirst [] w rfl))
        exact List.append_cancel_left ht
    · have hlater : ∀ u w, c :: t = u ++ (part ++ w) → ∃ u', u = c :: u' ∧ t = u' ++ (part ++ w) := by
        intro u w h
        cases u with
        | nil => exact absurd ⟨w, h.symm⟩ hstart
        | cons d u' =>
          obtain ⟨rfl, ht⟩ := List.cons_eq_cons.mp h
          exact ⟨u', rfl, ht⟩
      rw [behind?_cons hstart, ih]
      constructor
      · rintro ⟨front, rfl, hfirst⟩
        refine ⟨c :: front, rfl, fun u w h => ?_⟩
        obtain ⟨u', rfl, ht⟩ := hlater u w h
        exact Nat.succ_le_succ (hfirst u' w ht)
      · rintro ⟨front, h, hfirst⟩
        obtain ⟨front', rfl, ht⟩ := hlater front rest h
        exact ⟨front', ht, fun u w hu => Nat.le_of_succ_le_succ (hfirst (c :: u) w (congrArg (c :: ·) hu))⟩

/-- A part that occurs has a first occurrence. -/
theorem isSome_behind? (u : Text) : (behind? part (u ++ (part ++ rest))).isSome := by
  induction u with
  | nil => rw [List.nil_append, behind?_of_prefix, Option.isSome_some]
  | cons c u ih =>
    rw [List.cons_append]
    by_cases hstart : part <+: c :: (u ++ (part ++ rest))
    · obtain ⟨w, hw⟩ := hstart
      rw [← hw, behind?_of_prefix, Option.isSome_some]
    · rwa [behind?_cons hstart]

end Text

namespace Rules

open Pattern

/-- What the name of the file of a reference begins with. -/
def opening : Text := "reference.".toList

def extension : Text := ".xml".toList

/-- The text between the first `reference.` of a name and an extension `.xml` at its end, if there is any. -/
def core? (name : Text) : Option Text :=
  ((Text.behind? opening name).bind (Text.withoutEnd? extension)).filter (!·.isEmpty)

/-- The label in the name of a file, which has no full stop behind a leading `RFC`. -/
def labelOf? (name : Text) : Option Text :=
  (core? name).map fileAnchor

/-- The text without a line feed at the end. -/
def withoutLineFeed (t : Text) : Text :=
  if Text.endsWith ['\n'] t then t.dropLast else t

/-- What stands behind the last line feed, but for one at the end. -/
def lastLine (t : Text) : Text :=
  (withoutLineFeed t).rtakeWhile (· != '\n')

section Labels

variable {fuel : Nat} {t u v l : Text}

/-- The text begins with the name of a file, and there is nothing else on the line or behind it. -/
def Opens (l v : Text) : Prop :=
  l ≠ [] ∧ '\n' ∉ l ∧ ∃ tail, (tail = [] ∨ tail = ['\n']) ∧ v = opening ++ (l ++ (extension ++ tail))

theorem referenceFile_eq : referenceFile =
    .seq (literal opening) (.seq (.group 1 (atLeastOnce (one .notNewline))) (.seq (literal extension) lineEnd)) :=
  rfl

theorem opens_of_matchAt {m : Match} (h : referenceFile.matchAt fuel (.amid u v) = some m) :
    ∃ l, Opens l v ∧ m.group? 1 = some l := by
  obtain ⟨t, hread⟩ := reads_of_matchAt h
  have hv : v = t ++ m.stop.rest := hread.advance.1
  rw [referenceFile_eq] at hread
  obtain ⟨_, _, _, rfl, hopening, hread⟩ := hread.of_seq
  obtain ⟨l, _, _, rfl, hgroup, hread⟩ := Reads.of_seq (p := group 1 _) hread
  obtain ⟨_, _, _, rfl, hext, hend⟩ := Reads.of_seq (p := literal extension) hread
  obtain rfl := hopening.of_literal
  obtain rfl := hext.of_literal
  obtain ⟨rfl, rfl, hrest⟩ := hend.of_lineEnd
  obtain ⟨_, hlabel, -⟩ := hgroup.of_group
  obtain ⟨hne, hlabel⟩ := Reads.of_atLeastOnce_one hlabel
  refine ⟨l, ⟨hne, fun hmem => ?_, m.stop.rest, hrest, ?_⟩, ?_⟩
  · exact absurd (hlabel _ hmem) (by decide)
  · rw [hv]
    simp
  · rw [group?_eq_lookup, hext.noted_eq (encloses_literal _ _), hgroup.noted_group (plain_atLeast_one _ 1)]
    rfl

theorem isSome_matchAt_of_opens (h : Opens l v) (hfuel : v.length ≤ fuel) :
    (referenceFile.matchAt fuel (.amid u v)).isSome := by
  obtain ⟨hne, hline, tail, htail, rfl⟩ := h
  have hlabel : ∀ c ∈ l, CharSet.notNewline c := by
    intro c hc
    rw [CharSet.notNewline, bne_iff_ne]
    rintro rfl
    exact hline hc
  have hdirect : referenceFile.Direct := by
    rw [referenceFile_eq]
    exact ⟨direct_literal _, ⟨trivial, _, rfl⟩, direct_literal _, trivial⟩
  obtain ⟨captures, hopening⟩ := accepts_literal opening u (l ++ (extension ++ tail)) []
  obtain ⟨captures', hgroup⟩ :=
    (accepts_atLeastOnce_one hne hlabel).group 1 (u ++ opening) (extension ++ tail) captures
  obtain ⟨captures'', hext⟩ := accepts_literal extension (u ++ opening ++ l) tail captures'
  have hend : lineEnd.Reads ⟨.amid (u ++ opening ++ l ++ extension) tail, captures''⟩ []
      ⟨.amid (u ++ opening ++ l ++ extension) tail, captures''⟩ := by
    refine .anchor ?_
    rcases htail with rfl | rfl <;> rfl
  exact (hopening.seq (hgroup.seq (hext.seq hend))).isSome_run hdirect hfuel rfl

theorem withoutLineFeed_of_ne {c : Char} (hc : c ≠ '\n') (t : Text) : withoutLineFeed (t ++ [c]) = t ++ [c] := by
  have hends : ¬Text.endsWith ['\n'] (t ++ [c]) := by
    intro h
    obtain ⟨s, hs⟩ := List.isSuffixOf_iff_suffix.mp h
    exact hc (List.singleton_inj.mp (List.append_inj' hs rfl).2).symm
  rw [withoutLineFeed, if_neg hends]

theorem withoutLineFeed_concat (t : Text) : withoutLineFeed (t ++ ['\n']) = t := by
  have hends : Text.endsWith ['\n'] (t ++ ['\n']) := List.isSuffixOf_iff_suffix.mpr (List.suffix_append t ['\n'])
  rw [withoutLineFeed, if_pos hends, List.dropLast_concat]

theorem Opens.withoutLineFeed_eq (h : Opens l v) (u : Text) :
    withoutLineFeed (u ++ v) = u ++ (opening ++ (l ++ extension)) := by
  obtain ⟨-, -, tail, htail, rfl⟩ := h
  have hlast : extension = ".xm".toList ++ ['l'] := rfl
  rcases htail with rfl | rfl
  · have hkept := withoutLineFeed_of_ne (c := 'l') (by decide) (u ++ (opening ++ (l ++ ".xm".toList)))
    rw [List.append_nil, hlast]
    simpa using hkept
  · have hdropped := withoutLineFeed_concat (u ++ (opening ++ (l ++ extension)))
    simpa using hdropped

/-- A text is opened by one name of a file at most. -/
theorem Opens.unique {l' : Text} (h : Opens l v) (h' : Opens l' v) : l = l' := by
  have heq := (h.withoutLineFeed_eq []).symm.trans (h'.withoutLineFeed_eq [])
  exact List.append_cancel_right (List.append_cancel_left heq)

theorem group_of_opens (h : Opens l v) (hfuel : v.length ≤ fuel) :
    ∃ m, referenceFile.matchAt fuel (.amid u v) = some m ∧ m.group? 1 = some l := by
  obtain ⟨m, hm⟩ := Option.isSome_iff_exists.mp (isSome_matchAt_of_opens (u := u) h hfuel)
  obtain ⟨l', h', hgroup⟩ := opens_of_matchAt hm
  exact ⟨m, hm, h.unique h' ▸ hgroup⟩

theorem core?_eq_some_iff : core? t = some l ↔
    l ≠ [] ∧ ∃ front, t = front ++ (opening ++ (l ++ extension)) ∧
      ∀ u w, t = u ++ (opening ++ w) → front.length ≤ u.length := by
  rw [core?, Option.filter_eq_some_iff, Option.bind_eq_some_iff, Bool.not_eq_true', List.isEmpty_eq_false_iff, and_comm]
  simp only [Text.withoutEnd?_eq_some_iff, exists_eq_right, Text.behind?_eq_some_iff]

/-- Where one name of a file ends the text, there is a first one. -/
theorem isSome_core? (hl : l ≠ []) (ht : t = u ++ (opening ++ (l ++ extension))) : (core? t).isSome := by
  have hopening : (Text.behind? opening t).isSome := ht ▸ Text.isSome_behind? u
  obtain ⟨rest, hrest⟩ := Option.isSome_iff_exists.mp hopening
  obtain ⟨front, hfront, hfirst⟩ := Text.behind?_eq_some_iff.mp hrest
  have hle : front.length ≤ u.length := hfirst u _ ht
  have hlength : front.length + rest.length = u.length + (l ++ extension).length := by
    have hsame := congrArg List.length (hfront.symm.trans ht)
    simp only [List.length_append] at hsame ⊢
    omega
  have hsuffix : l ++ extension <:+ rest := by
    have hname : l ++ extension <:+ t := ⟨u ++ opening, by rw [ht, List.append_assoc]⟩
    have hrests : rest <:+ t := ⟨front ++ opening, by rw [hfront, List.append_assoc]⟩
    exact List.suffix_of_suffix_length_le hname hrests (by omega)
  obtain ⟨z, rfl⟩ := hsuffix
  have hcore : core? t = some (z ++ l) := by
    refine core?_eq_some_iff.mpr ⟨List.append_ne_nil_of_right_ne_nil z hl, front, ?_, hfirst⟩
    rw [hfront, List.append_assoc z]
  rw [hcore, Option.isSome_some]

/-- What stands in front of the last line. -/
def formerLines (t : Text) : Text :=
  (withoutLineFeed t).rdropWhile (· != '\n')

theorem formerLines_append_lastLine (t : Text) : formerLines t ++ lastLine t = withoutLineFeed t :=
  List.rdropWhile_append_rtakeWhile

theorem not_mem_lastLine (t : Text) : '\n' ∉ lastLine t := by
  intro h
  exact absurd (List.mem_rtakeWhile_imp h) (by decide)

theorem lastLine_of_not_mem (h : '\n' ∉ t) : lastLine t = t := by
  have hends : ¬Text.endsWith ['\n'] t := fun hends =>
    h ((List.isSuffixOf_iff_suffix.mp hends).subset (List.mem_singleton_self _))
  rw [lastLine, withoutLineFeed, if_neg hends, List.rtakeWhile_eq_self_iff]
  intro c hc
  rw [bne_iff_ne]
  rintro rfl
  exact h hc

theorem exists_tail (t : Text) : ∃ tail, (tail = [] ∨ tail = ['\n']) ∧ t = withoutLineFeed t ++ tail := by
  by_cases hends : Text.endsWith ['\n'] t
  · obtain ⟨s, rfl⟩ := List.isSuffixOf_iff_suffix.mp hends
    exact ⟨['\n'], .inr rfl, by rw [withoutLineFeed_concat]⟩
  · exact ⟨[], .inl rfl, by rw [withoutLineFeed, if_neg hends, List.append_nil]⟩

/-- A name of a file stands in the last line. -/
theorem Opens.lastLine_eq (h : Opens l v) (u : Text) :
    formerLines (u ++ v) ++ u.rtakeWhile (· != '\n') = u ∧
      lastLine (u ++ v) = u.rtakeWhile (· != '\n') ++ (opening ++ (l ++ extension)) := by
  have hname : ∀ c ∈ (opening ++ (l ++ extension)).reverse, (c != '\n') = true := by
    intro c hc
    rw [bne_iff_ne]
    rintro rfl
    simp only [List.mem_reverse, List.mem_append] at hc
    rcases hc with hc | hc | hc
    · exact absurd hc (by decide)
    · exact h.2.1 hc
    · exact absurd hc (by decide)
  rw [formerLines, lastLine, h.withoutLineFeed_eq u]
  constructor
  · rw [List.rdropWhile, List.reverse_append, List.dropWhile_append_of_pos hname]
    exact List.rdropWhile_append_rtakeWhile
  · rw [List.rtakeWhile, List.reverse_append, List.takeWhile_append_of_pos hname, List.reverse_append,
      List.reverse_reverse]
    rfl

/-- In front of the first name of a file in the last line, there is none in the text. -/
theorem matchAt_eq_none_of_first {front y z : Text} (ht : t = formerLines t ++ front ++ v)
    (hfirst : ∀ u w, lastLine t = u ++ (opening ++ w) → front.length ≤ u.length) (hyz : formerLines t ++ front = y ++ z)
    (hz : z ≠ []) : referenceFile.matchAt fuel (.amid y (z ++ v)) = none := by
  rw [Option.eq_none_iff_forall_ne_some]
  intro m hm
  obtain ⟨l, hopens, -⟩ := opens_of_matchAt hm
  have hsplit : t = y ++ (z ++ v) := by rw [← List.append_assoc, ← hyz, ← ht]
  obtain ⟨hformer, hlast⟩ := hopens.lastLine_eq y
  rw [← hsplit] at hformer hlast
  have hle := hfirst _ _ hlast
  have hpos := List.length_pos_of_ne_nil hz
  have hlength := congrArg List.length hyz
  have hlength' := congrArg List.length hformer
  rw [List.length_append] at hlength'
  rw [List.length_append, List.length_append] at hlength
  omega

/-- What ends the last line is the end of the text, but for a line feed. -/
theorem opens_of_lastLine (hl : l ≠ []) (h : lastLine t = u ++ (opening ++ (l ++ extension))) :
    ∃ v, t = formerLines t ++ u ++ v ∧ Opens l v := by
  obtain ⟨tail, htail, ht⟩ := exists_tail t
  have hline : '\n' ∉ l := by
    intro hmem
    refine not_mem_lastLine t ?_
    rw [h]
    simp [hmem]
  refine ⟨opening ++ (l ++ (extension ++ tail)), ?_, hl, hline, tail, htail, rfl⟩
  calc t = formerLines t ++ lastLine t ++ tail := by rw [formerLines_append_lastLine, ← ht]
    _ = formerLines t ++ u ++ (opening ++ (l ++ (extension ++ tail))) := by
      rw [h]
      simp only [List.append_assoc]

theorem group_search? (t : Text) : (referenceFile.search? t).bind (·.group? 1) = core? (lastLine t) := by
  cases hcore : core? (lastLine t) with
  | none =>
    have hnone : referenceFile.search? t = none := by
      refine search?_eq_none fun u v ht => ?_
      rw [Option.eq_none_iff_forall_ne_some]
      intro m hm
      obtain ⟨l, hopens, -⟩ := opens_of_matchAt hm
      have hsome := isSome_core? hopens.1 (hopens.lastLine_eq u).2
      rw [← ht, hcore] at hsome
      cases hsome
    rw [hnone, Option.bind_none]
  | some l =>
    obtain ⟨hl, front, hfront, hfirst⟩ := core?_eq_some_iff.mp hcore
    obtain ⟨v, ht, hopens⟩ := opens_of_lastLine hl hfront
    have hfuel : v.length ≤ (formerLines t ++ front ++ v).length := by
      rw [@List.length_append _ _ v]
      omega
    obtain ⟨m, hm, hgroup⟩ := group_of_opens (u := formerLines t ++ front) hopens hfuel
    have hsearch := search?_of_matchAt hm fun y z hyz hz => matchAt_eq_none_of_first ht hfirst hyz hz
    rw [← ht] at hsearch
    rw [hsearch, Option.bind_some, hgroup]

/-- The label is looked for in the last line only. -/
theorem anchorOfFile?_eq (t : Text) : anchorOfFile? t = labelOf? (lastLine t) := by
  rw [anchorOfFile?, group_search?, labelOf?]

end Labels

section Standing

/-- How a cross-reference stands to what it may refer to. -/
inductive Standing where
  | untargeted
  | lost
  | resolved
deriving DecidableEq

variable {label label' : Text → Option Text} {d d' : Markup.Document} {t : Text}

/-- An element of the document has the text in one of the attributes for it, or it is the label of a file that the document
pulls in. -/
def Known (label : Text → Option Text) (d : Markup.Document) (t : Text) : Prop :=
  (∃ e ∈ d.root.all, ∃ name ∈ ["anchor", "pn", "slugifiedName"], e.attribute? name = some t) ∨
    ∃ url ∈ pulledIn d, label url = some t

instance : Decidable (Known label d t) :=
  inferInstanceAs (Decidable (_ ∨ _))

def standing (label : Text → Option Text) (d : Markup.Document) (e : Markup.Element) : Standing :=
  match e.filled? "target" with
  | none => .untargeted
  | some t => if Known label d t then .resolved else .lost

/-- The cross-references that stand so, in the order of the document. -/
def those (label : Text → Option Text) (d : Markup.Document) (s : Standing) : List Markup.Element :=
  (d.root.allNamed "xref").filter fun e => standing label d e = s

/-- The text is the target of a cross-reference and nothing else. -/
def Lost (label : Text → Option Text) (d : Markup.Document) (t : Text) : Prop :=
  ∃ e ∈ d.root.allNamed "xref", e.filled? "target" = some t ∧ ¬Known label d t

/-- A nit with the lines of all the elements, unless there are none. -/
def gathered (code message : String) (es : List Markup.Element) : List Nit :=
  if es.isEmpty then []
  else [⟨.error, code, "Found " ++ Issue.counted es.length "instance" ++ " of <xref> with " ++ message,
    some (Site.vocabularyAt "target"), some (es.map fun e => ⟨e.line, none⟩)⟩]

/-- The nits list the cross-references without target and those that are lost, the latter with the names of their
targets. -/
def nitsFor (label : Text → Option Text) (d : Markup.Document) (names : List Text) : List Nit :=
  gathered "MISSING_XREF_TARGET" "no target" (those label d .untargeted) ++
    gathered "XREF_TARGET_NOT_ANCHOR" ("unmatched target: " ++ Issue.listed names) (those label d .lost)

/-- The nits of a document tell how its cross-references stand, and they name each target that is lost once and in
order. -/
def Sorts (label : Text → Option Text) (d : Markup.Document) : Prop :=
  ∃ names : List Text, (names.Pairwise fun s t => Text.le s t ∧ s ≠ t) ∧ (∀ t, t ∈ names ↔ Lost label d t) ∧
    (crossReferences (.markup d)).nits .normal = .ok (nitsFor label d names)

theorem filled?_eq_some_iff {e : Markup.Element} {name : String} :
    e.filled? name = some t ↔ e.attribute? name = some t ∧ t ≠ [] := by
  rw [Markup.Element.filled?, Option.filter_eq_some_iff, Bool.not_eq_true', List.isEmpty_eq_false_iff]

theorem mem_elementTargets_iff {root : Markup.Element} (ht : t ≠ []) : t ∈ elementTargets root ↔
    ∃ e ∈ root.all, ∃ name ∈ ["anchor", "pn", "slugifiedName"], e.attribute? name = some t := by
  simp only [elementTargets, targetAttributes, List.mem_flatMap, List.mem_filterMap, filled?_eq_some_iff, ht, ne_eq,
    not_false_eq_true, and_true]

/-- A target that is not empty is known exactly if it is among all targets. -/
theorem contains_targets_iff (ht : t ≠ []) : (targets d).contains t ↔ Known anchorOfFile? d t := by
  rw [List.contains_iff_mem, targets, List.mem_append, mem_elementTargets_iff ht, List.mem_filterMap]
  rfl

theorem standing_eq_untargeted_iff {e : Markup.Element} :
    standing label d e = .untargeted ↔ e.filled? "target" = none := by
  rw [standing]
  cases e.filled? "target" with
  | none => exact iff_of_true rfl rfl
  | some t =>
    dsimp only
    split_ifs <;> exact iff_of_false (by decide) not_false

theorem standing_eq_lost_iff {e : Markup.Element} :
    standing label d e = .lost ↔ ∃ t, e.filled? "target" = some t ∧ ¬Known label d t := by
  rw [standing]
  cases e.filled? "target" with
  | none => exact iff_of_false nofun nofun
  | some t =>
    simp only [Option.some.injEq, exists_eq_left']
    split_ifs with hknown
    · exact iff_of_false (by decide) (not_not.mpr hknown)
    · exact iff_of_true rfl hknown

theorem withoutTarget_eq (label : Text → Option Text) (d : Markup.Document) :
    withoutTarget d = those label d .untargeted := by
  refine List.filter_congr fun e _ => ?_
  rw [Bool.eq_iff_iff, decide_eq_true_eq, standing_eq_untargeted_iff, Option.isNone_iff_eq_none]

theorem unmatched_eq (d : Markup.Document) : unmatched d = those anchorOfFile? d .lost := by
  refine List.filter_congr fun e _ => ?_
  rw [Bool.eq_iff_iff, decide_eq_true_eq, standing_eq_lost_iff, Option.any_eq_true]
  refine exists_congr fun t => and_congr_right fun htarget => ?_
  rw [← contains_targets_iff (filled?_eq_some_iff.mp htarget).2, Bool.not_eq_true', Bool.not_eq_true]

theorem mem_targets_lost_iff : t ∈ (those label d .lost).filterMap (·.filled? "target") ↔ Lost label d t := by
  rw [List.mem_filterMap, Lost]
  refine exists_congr fun e => ?_
  rw [those, List.mem_filter, decide_eq_true_eq, standing_eq_lost_iff, and_assoc]
  refine and_congr_right fun _ => ?_
  constructor
  · rintro ⟨⟨s, hs, hknown⟩, ht⟩
    obtain rfl := Option.some.inj (hs.symm.trans ht)
    exact ⟨ht, hknown⟩
  · rintro ⟨ht, hknown⟩
    exact ⟨⟨t, ht, hknown⟩, ht⟩

/-- A finding about elements becomes a nit with their lines. -/
theorem filterMap_about {i : Issue} {message : String} (code : String) (es : List Markup.Element) (hcode : i.code = code)
    (hgravity : i.gravity.normal = .error) (hreference : i.reference? = some (Site.vocabularyAt "target"))
    (hmessage : i.message = "Found " ++ Issue.counted es.length "instance" ++ " of <xref> with " ++ message) :
    (about es i).filterMap (Finding.nit? .normal) = gathered code message es := by
  rw [about, gathered, ← hcode, ← hmessage, ← hreference]
  split_ifs
  · rfl
  · simp [Finding.nit?, Finding.onLines, Nit.graded?, Gravity.inMode, hgravity]

theorem message_withoutTarget (n : Nat) : (Issue.xrefWithoutTarget n).message =
    "Found " ++ Issue.counted n "instance" ++ " of <xref> with " ++ "no target" := by
  have hwords : " of <xref> with no target" = " of <xref> with " ++ "no target" := rfl
  have hmessage : (Issue.xrefWithoutTarget n).message =
      "Found " ++ Issue.counted n "instance" ++ " of <xref> with no target" := rfl
  rw [hmessage, hwords]
  simp only [String.append_assoc]

theorem message_targets (n : Nat) (ts : List Text) : (Issue.xrefTargets n ts).message =
    "Found " ++ Issue.counted n "instance" ++ " of <xref> with " ++
      ("unmatched target: " ++ Issue.listed (Text.sortedSet ts)) := by
  have hwords : " of <xref> with unmatched target: " = " of <xref> with " ++ "unmatched target: " := rfl
  have hmessage : (Issue.xrefTargets n ts).message = "Found " ++ Issue.counted n "instance" ++
      " of <xref> with unmatched target: " ++ Issue.listed (Text.sortedSet ts) := rfl
  rw [hmessage, hwords]
  simp only [String.append_assoc]

/-- The nits, by the two sorts of cross-references that are listed. -/
theorem nits_crossReferences (d : Markup.Document) :
    (crossReferences (.markup d)).nits .normal =
      .ok (gathered "MISSING_XREF_TARGET" "no target" (withoutTarget d) ++
        gathered "XREF_TARGET_NOT_ANCHOR"
          ("unmatched target: " ++ Issue.listed (Text.sortedSet ((unmatched d).filterMap (·.filled? "target"))))
          (unmatched d)) := by
  have hmissing := filterMap_about "MISSING_XREF_TARGET" (withoutTarget d) rfl rfl rfl
    (message_withoutTarget (withoutTarget d).length)
  have hlost := filterMap_about "XREF_TARGET_NOT_ANCHOR" (unmatched d) rfl rfl rfl
    (message_targets (unmatched d).length ((unmatched d).filterMap (·.filled? "target")))
  refine congrArg Except.ok ?_
  rw [← hmissing, ← hlost, ← List.filterMap_append]
  rfl

/-- The labels that are looked for sort the cross-references. -/
theorem sorts_anchorOfFile? (d : Markup.Document) : Sorts anchorOfFile? d := by
  let lost := those anchorOfFile? d .lost
  refine ⟨Text.sortedSet (lost.filterMap (·.filled? "target")), Text.pairwise_sortedSet _, fun t => ?_, ?_⟩
  · rw [Text.mem_sortedSet]
    exact mem_targets_lost_iff
  · rw [nits_crossReferences, withoutTarget_eq anchorOfFile?, unmatched_eq]
    rfl

/-- Labels that are the same for all files sort the cross-references in the same way. -/
theorem Sorts.congr (h : Sorts label d) (hlabel : ∀ url ∈ pulledIn d, label url = label' url) : Sorts label' d := by
  have hknown : ∀ t, Known label d t ↔ Known label' d t := fun t =>
    or_congr_right (exists_congr fun url => and_congr_right fun hurl => by rw [hlabel url hurl])
  have hlost : ∀ t, Lost label d t ↔ Lost label' d t := fun t =>
    exists_congr fun e => and_congr_right fun _ => and_congr_right fun _ => not_congr (hknown t)
  have hthose : ∀ s, those label d s = those label' d s := by
    intro s
    have hstanding : ∀ e, standing label d e = standing label' d e := by
      intro e
      rw [standing, standing]
      cases e.filled? "target" with
      | none => rfl
      | some t => simp only [hknown t]
    simp only [those, hstanding]
  obtain ⟨names, hsorted, hnames, hnits⟩ := h
  refine ⟨names, hsorted, fun t => (hnames t).trans (hlost t), ?_⟩
  rw [hnits, nitsFor, nitsFor, hthose, hthose]

section Growth

variable {name : String}

theorem pulledIn_subset (h : Markup.Document.Grows name d d') : pulledIn d ⊆ pulledIn d' := by
  intro url hurl
  rw [pulledIn, List.mem_append] at hurl ⊢
  rcases hurl with hurl | hurl
  · obtain ⟨e, he, rfl⟩ := List.mem_map.mp hurl
    obtain ⟨he, hname⟩ := List.mem_filter.mp he
    obtain ⟨e', he', hsame⟩ := h.exists_after he
    refine .inl (List.mem_map.mpr ⟨e', List.mem_filter.mpr ⟨he', ?_⟩, hsame.attributeText "href"⟩)
    rwa [Markup.Element.name, hsame.name]
  · exact .inr (List.map_subset _ h.entities hurl)

/-- What is known stays known. -/
theorem Known.grow (h : Known label d t) (hgrows : Markup.Document.Grows name d d') : Known label d' t := by
  rcases h with ⟨e, he, key, hkey, hvalue⟩ | ⟨url, hurl, hlabel⟩
  · obtain ⟨e', he', hsame⟩ := hgrows.exists_after he
    exact .inl ⟨e', he', key, hkey, (hsame.attribute? key).trans hvalue⟩
  · exact .inr ⟨url, pulledIn_subset hgrows hurl, hlabel⟩

/-- No target is lost by what is added, unless a cross-reference is. -/
theorem Lost.of_grown (hgrows : Markup.Document.Grows "xref" d d') (h : Lost label d' t) : Lost label d t := by
  obtain ⟨e', he', htarget, hknown⟩ := h
  obtain ⟨e, he, hsame⟩ := hgrows.exists_before he'
  exact ⟨e, he, (hsame.filled? "target").symm.trans htarget, fun hbefore => hknown (hbefore.grow hgrows)⟩

end Growth

/-- The nits sort the cross-references of every document by the attributes of its elements and by the labels in the last
lines of the names of its files; by the labels in the names themselves, as long as a name with a line feed has the same
label as its last line.  A document that grows, though not by cross-references, has no targets lost that were not lost
before. -/
theorem sorts_crossReferences (d : Markup.Document) :
    Sorts (fun url => labelOf? (lastLine url)) d ∧
      ((∀ url ∈ pulledIn d, '\n' ∈ url → labelOf? (lastLine url) = labelOf? url) → Sorts labelOf? d) ∧
      ∀ d', d.Grows "xref" d' → ∀ t,
        Lost (fun url => labelOf? (lastLine url)) d' t → Lost (fun url => labelOf? (lastLine url)) d t := by
  have hlabel : anchorOfFile? = fun url => labelOf? (lastLine url) := funext anchorOfFile?_eq
  have hsorts : Sorts (fun url => labelOf? (lastLine url)) d := hlabel ▸ sorts_anchorOfFile? d
  refine ⟨hsorts, fun hsame => hsorts.congr fun url hurl => ?_, fun d' hgrows t => Lost.of_grown hgrows⟩
  by_cases hline : '\n' ∈ url
  · exact hsame url hurl hline
  · rw [lastLine_of_not_mem hline]

/-- A file whose name is torn by a line feed goes without a label. -/
theorem not_sorts_labelOf? :
    ∃ d, Markup.Document.ofOctets none (Utf8.encode ("<rfc xmlns:xi=\"http://www.w3.org/2001/XInclude\"><t>" ++
        "<xref target=\"a&#10;b\"/></t><xi:include href=\"reference.a&#10;b.xml\"/></rfc>").toList) = .ok d ∧
      ¬Sorts labelOf? d := by
  obtain ⟨d, hd, hmissing, hlost, hnits⟩ := Attempts.exists_of_decide
    (x := Markup.Document.ofOctets none (Utf8.encode ("<rfc xmlns:xi=\"http://www.w3.org/2001/XInclude\"><t>" ++
        "<xref target=\"a&#10;b\"/></t><xi:include href=\"reference.a&#10;b.xml\"/></rfc>").toList))
    (p := fun d => (those labelOf? d .untargeted).isEmpty ∧ (those labelOf? d .lost).isEmpty ∧
      (unmatched d).isEmpty = false)
    (by decide +kernel)
  refine ⟨d, hd, ?_⟩
  rintro ⟨names, -, -, hsorts⟩
  rw [nits_crossReferences, nitsFor, List.isEmpty_iff.mp hmissing, List.isEmpty_iff.mp hlost, Except.ok.injEq] at hsorts
  have hnone : gathered "XREF_TARGET_NOT_ANCHOR" _ (unmatched d) = [] := (List.append_eq_nil_iff.mp hsorts).2
  rw [gathered, hnits, if_neg Bool.false_ne_true] at hnone
  cases hnone

end Standing

end Rules
end DraftLint
