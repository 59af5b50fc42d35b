import DraftLint.Proofs.Markup.Spelling
import DraftLint.Proofs.Plain.Labels
import DraftLint.Rules.Bibliography

/-!
# Drafts in both formats

A label lists a draft in plain text if the word occurs anywhere in the name that it gives, but in markup only
if the name begins with it.  So the two formats agree on a label exactly if its name begins like that of a
draft or does not contain the word at all.
-/

namespace DraftLint

namespace Text

/-- Small letters of the Latin alphabet stay as they are. -/
theorem lower_draft (t : Text) :
    lower ("draft-".toList ++ t) = "draft-".toList ++ lowerFrom "-tfard".toList t :=
  rfl

theorem startsWith_lower_of_startsWith {t : Text} (h : startsWith "draft-".toList t) :
    startsWith "draft-".toList (lower t) := by
  obtain ⟨rest, rfl⟩ := List.isPrefixOf_iff_prefix.mp h
  rw [lower_draft]
  exact List.isPrefixOf_iff_prefix.mpr (List.prefix_append ..)

theorem contains_of_startsWith {t : Text} (h : startsWith "draft-".toList t) : contains "draft".toList t := by
  obtain ⟨rest, rfl⟩ := List.isPrefixOf_iff_prefix.mp h
  rfl

theorem contains_lower_of_prefix {t : Text} (h : "draft".toList <+: t) : contains "draft".toList (lower t) := by
  obtain ⟨rest, rfl⟩ := h
  rfl

end Text

namespace Citation

open Pattern

section Stem

variable {s : Text}

/-- The version that is left out does not reach into the word. -/
theorem prefix_stem (h : Text.startsWith "draft-".toList s) : "draft".toList <+: stem s := by
  rw [stem, expanded_of_startsWith h]
  obtain ⟨rest, rfl⟩ := List.isPrefixOf_iff_prefix.mp h
  have hword : "draft".toList <+: "draft-".toList ++ rest := ⟨'-' :: rest, rfl⟩
  rw [unversioned]
  split_ifs with hversion
  · rw [List.prefix_take_iff]
    refine ⟨hword, ?_⟩
    rcases rest with _ | ⟨c, _ | ⟨d, rest⟩⟩
    · cases hversion
    · cases hversion
    · simp
  · exact hword

/-- The name keeps its small letters if it is still one without the version. -/
theorem startsWith_stem (h : Text.startsWith "draft-".toList s)
    (hlower : Text.startsWith "draft-".toList (Text.lower (stem s))) :
    Text.startsWith "draft-".toList (stem s) := by
  have hprefix : stem s <+: s := by
    rw [stem, expanded_of_startsWith h]
    exact unversioned_prefix s
  obtain ⟨rest, hrest⟩ := prefix_stem h
  rw [← hrest] at hprefix hlower ⊢
  cases rest with
  | nil => exact absurd hlower (by decide)
  | cons c rest =>
    obtain ⟨tail, rfl⟩ := List.isPrefixOf_iff_prefix.mp h
    have hnext : c :: rest <+: '-' :: tail := (List.prefix_append_right_inj "draft".toList).mp hprefix
    obtain ⟨rfl, -⟩ := List.cons_prefix_cons.mp hnext
    exact List.isPrefixOf_iff_prefix.mpr ⟨rest, rfl⟩

end Stem

end Citation

namespace Rules

open Citation

/-- The only reference of the document bears the label.  Lines that follow the references up to the one that
ends them are read as references too. -/
def ListsOnly (s : Text) : Document → Prop
  | .text d => ∀ s', IsLabel s' → (d.ListsLabel s' ↔ s' = s)
  | .markup m => ∃ e k, m.root.entries = [(e, k)] ∧ e.isNamed "reference" ∧ e.attribute? "anchor" = some s ∧
      e.childrenNamed "seriesInfo" = []

/-- The name of the draft that an anchor lists. -/
def anchorName? (s : Text) : Option Text :=
  if Text.startsWith "draft-".toList (stem s) then some (stem s)
  else if Text.startsWith "draft-".toList s then some s
  else none

/-- Both documents refer to the same drafts, all of them by names that begin like those of drafts. -/
def Agree (d d' : Document) : Prop :=
  ∃ names, referencedDrafts d = .ok names ∧ referencedDrafts d' = .ok names ∧
    ∀ n ∈ names, Text.startsWith "draft-".toList (Text.lower n)

section Names

variable {s : Text}

/-- In plain text the label lists the name that it gives. -/
theorem referencedDrafts_text {fileName : Option Text} {t : Text} (hs : ∀ c ∈ s, labelChar c)
    (hrfc : namesRfc s = false) (h : ListsOnly s (.text (.ofText fileName t))) :
    referencedDrafts (.text (.ofText fileName t)) = .ok (nameIn? s).toList := by
  have hmem := Plain.Document.mem_listedLabels_ofText fileName t
  have hnodup := (Plain.Document.keepsLabels_ofText fileName t).nodup
  generalize hvs : (Plain.Document.ofText fileName t).scan.items.listedLabels.map Plain.Entry.value = vs
    at hmem hnodup
  have hnames : referencedDrafts (.text (.ofText fileName t)) = .ok (vs.filterMap draftName?) := by
    rw [← hvs, List.filterMap_map]
    rfl
  have honly : ∀ v, v ∈ vs ↔ s ≠ [] ∧ v = '[' :: s ++ [']'] := by
    intro v
    rw [hmem]
    constructor
    · rintro ⟨s', rfl, hs', hlists⟩
      obtain rfl := (h s' hs').mp hlists
      exact ⟨hs'.ne_nil, rfl⟩
    · rintro ⟨hne, rfl⟩
      have hlabel : IsLabel s := ⟨hne, hs, hrfc⟩
      exact ⟨s, rfl, hlabel, (h s hlabel).mpr rfl⟩
  rw [hnames]
  by_cases hne : s = []
  · have hvs : vs = [] := List.eq_nil_iff_forall_not_mem.mpr fun v hv => ((honly v).mp hv).1 hne
    rw [hvs, hne]
    rfl
  · have hvs : vs = ['[' :: s ++ [']']] := by
      have hperm : vs.Perm ['[' :: s ++ [']']] := by
        rw [List.perm_ext_iff_of_nodup hnodup (List.nodup_cons.mpr ⟨List.not_mem_nil, List.nodup_nil⟩)]
        intro v
        rw [honly, List.mem_singleton]
        exact and_iff_right hne
      exact List.perm_singleton.mp hperm
    rw [hvs, List.filterMap_cons, draftName?_bracketed hs, List.filterMap_nil]
    cases nameIn? s <;> rfl

/-- What an anchor is taken for lists a draft exactly if the name that it gives begins with the small letters of
one, or it does so itself. -/
theorem anchorName?_eq (hs : ∀ c ∈ s, labelChar c) : anchorName? s =
    if Text.startsWith "draft-".toList (Markup.draftOr s) then some (Markup.draftOr s) else none := by
  have hdraft : Markup.draftLabel? s =
      (nameIn? s).filter fun name => Text.startsWith "draft-".toList (Text.lower name) := by
    rw [Markup.draftLabel?, draftName?_eq hs]
  rw [anchorName?]
  by_cases hstem : Text.startsWith "draft-".toList (Text.lower (stem s)) = true
  · have hor : Markup.draftOr s = stem s := by
      rw [Markup.draftOr, hdraft, nameIn?, if_pos (Text.contains_of_startsWith hstem), Option.filter_some,
        if_pos hstem, Option.getD_some]
    rw [hor]
    by_cases hname : Text.startsWith "draft-".toList (stem s) = true
    · rw [if_pos hname, if_pos hname]
    · have hlabel : ¬Text.startsWith "draft-".toList s = true := fun h => hname (startsWith_stem h hstem)
      rw [if_neg hname, if_neg hname, if_neg hlabel]
  · have hor : Markup.draftOr s = s := by
      rw [Markup.draftOr, hdraft, nameIn?]
      split_ifs
      · rw [Option.filter_some, if_neg hstem, Option.getD_none]
      · rfl
    have hname : ¬Text.startsWith "draft-".toList (stem s) = true :=
      fun h => hstem (Text.startsWith_lower_of_startsWith h)
    rw [hor, if_neg hname]

/-- The only entry of a bibliography lists a draft if its label begins with the small letters of one. -/
theorem referencedDrafts_singleton {m : Markup.Document} {e : Markup.Element} {k : ReferenceKind} {label : Text}
    (hentries : m.root.entries = [(e, k)]) (hlabel : e.documentLabel = .ok label) :
    referencedDrafts (.markup m) =
      .ok (if Text.startsWith "draft-".toList label then some label else none).toList := by
  have hbibliography : m.root.bibliography = .ok (if label.isEmpty then [] else [(label, k)]) := by
    simp only [Markup.Element.bibliography, hentries, List.foldlM_cons, List.foldlM_nil, Markup.Element.addLabel,
      hlabel, bind, Except.bind, pure, Except.pure, List.any_nil, Bool.or_false, List.nil_append]
  rw [referencedDrafts, hbibliography]
  cases label with
  | nil => rfl
  | cons c t =>
    simp only [List.isEmpty_cons, Bool.false_eq_true, if_false, bind, Except.bind, pure, Except.pure,
      List.filterMap_cons, List.filterMap_nil]
    split_ifs <;> rfl

/-- In markup the label lists what begins with the small letters of a draft. -/
theorem referencedDrafts_markup {m : Markup.Document} (hs : ∀ c ∈ s, labelChar c) (hrfc : namesRfc s = false)
    (h : ListsOnly s (.markup m)) : referencedDrafts (.markup m) = .ok (anchorName? s).toList := by
  obtain ⟨e, k, hentries, hname, hanchor, hinfos⟩ := h
  have hinclude : e.name ≠ Markup.includeName := by
    have hreference : e.name = "reference".toList := beq_iff_eq.mp hname
    rw [hreference]
    decide
  have htrim : Text.trim (e.attributeText "anchor") = s := by
    rw [Markup.Element.attributeText, hanchor, Option.getD_some]
    exact Text.trim_eq_self fun c hc => (apart_of_labelChar (hs c hc)).1
  have hsilent : ∀ info ∈ e.childrenNamed "seriesInfo", info.Silent := by
    rw [hinfos]
    exact List.forall_mem_nil _
  have hlabel : e.documentLabel = .ok (Markup.draftOr s) := by
    rw [Markup.Element.documentLabel_eq, Markup.Element.naming_of_anchor hinclude htrim hsilent hs hrfc,
      Markup.Naming.label_ofLabel]
  rw [referencedDrafts_singleton hentries hlabel, anchorName?_eq hs]

/-- The names that the two formats give agree exactly if the name begins like that of a draft or does not
contain the word. -/
theorem nameIn?_eq_anchorName?_iff :
    (nameIn? s = anchorName? s ∧ ∀ n ∈ nameIn? s, Text.startsWith "draft-".toList (Text.lower n)) ↔
      Text.startsWith "draft-".toList (stem s) ∨ ¬Text.contains "draft".toList (Text.lower (stem s)) := by
  by_cases hstem : Text.startsWith "draft-".toList (stem s) = true
  · have hlower := Text.startsWith_lower_of_startsWith hstem
    have hname : nameIn? s = some (stem s) := if_pos (Text.contains_of_startsWith hlower)
    have hanchor : anchorName? s = some (stem s) := if_pos hstem
    refine iff_of_true ⟨hname.trans hanchor.symm, ?_⟩ (.inl hstem)
    rw [hname]
    rintro n ⟨⟩
    exact hlower
  · by_cases hword : Text.contains "draft".toList (Text.lower (stem s)) = true
    · refine iff_of_false ?_ ?_
      · rintro ⟨heq, -⟩
        rw [nameIn?, if_pos hword, anchorName?, if_neg hstem] at heq
        split_ifs at heq with hlabel
        rw [← Option.some.inj heq] at hlabel
        exact hstem hlabel
      · rintro (h | h)
        · exact hstem h
        · exact h hword
    · have hname : nameIn? s = none := if_neg hword
      have hlabel : ¬Text.startsWith "draft-".toList s = true :=
        fun h => hword (Text.contains_lower_of_prefix (prefix_stem h))
      have hanchor : anchorName? s = none := by
        rw [anchorName?, if_neg hstem, if_neg hlabel]
      refine iff_of_true ⟨hname.trans hanchor.symm, ?_⟩ (.inr hword)
      rw [hname]
      rintro n ⟨⟩

end Names

section Examples

variable {s : Text}

/-- A document in markup whose only reference is one with this anchor. -/
def loneReference (anchor : Text) : Markup.Document :=
  ⟨none, ⟨⟨"rfc".toList, 1, []⟩, [.element ⟨"back".toList, 1, []⟩ [.element ⟨"references".toList, 1, []⟩
    [.element ⟨"reference".toList, 1, [("anchor".toList, anchor)]⟩ []]]]⟩, [], .unknown⟩

theorem listsOnly_loneReference (s : Text) : ListsOnly s (.markup (loneReference s)) :=
  ⟨_, _, rfl, rfl, rfl, rfl⟩

theorem listsOnly_of_listedLabels {fileName : Option Text} {t : Text}
    (h : (Plain.Document.ofText fileName t).scan.items.listedLabels.map Plain.Entry.value =
      ['[' :: s ++ [']']]) : ListsOnly s (.text (.ofText fileName t)) := by
  intro s' hs'
  rw [Plain.Document.listsLabel_iff fileName t hs', h, List.mem_singleton]
  constructor
  · intro heq
    exact List.append_cancel_right (List.cons.inj heq).2
  · rintro rfl
    rfl

end Examples

/-- Which drafts a label lists in plain text and in markup, and when the two agree. -/
theorem agree_iff {s : Text} (hs : ∀ c ∈ s, labelChar c) (hrfc : namesRfc s = false)
    {fileName : Option Text} {t : Text} (ht : ListsOnly s (.text (.ofText fileName t)))
    {m : Markup.Document} (hm : ListsOnly s (.markup m)) :
    referencedDrafts (.text (.ofText fileName t)) = .ok (nameIn? s).toList ∧
    referencedDrafts (.markup m) = .ok (anchorName? s).toList ∧
    (Agree (.text (.ofText fileName t)) (.markup m) ↔
      Text.startsWith "draft-".toList (stem s) ∨ ¬Text.contains "draft".toList (Text.lower (stem s))) := by
  have htext := referencedDrafts_text hs hrfc ht
  have hmarkup := referencedDrafts_markup hs hrfc hm
  refine ⟨htext, hmarkup, ?_⟩
  rw [← nameIn?_eq_anchorName?_iff]
  constructor
  · rintro ⟨names, hnames, hnames', hdraft⟩
    obtain rfl := Except.ok.inj (hnames.symm.trans htext)
    have heq := congrArg List.head? (Except.ok.inj (hnames'.symm.trans hmarkup))
    rw [Option.head?_toList, Option.head?_toList] at heq
    exact ⟨heq, fun n hn => hdraft n (Option.mem_toList.mpr hn)⟩
  · rintro ⟨heq, hdraft⟩
    exact ⟨(nameIn? s).toList, htext, heq ▸ hmarkup, fun n hn => hdraft n (Option.mem_toList.mp hn)⟩

/-- The short form of a name. -/
theorem agree_iff_short :
    ∃ (s : Text) (t : Text) (m : Markup.Document), s = "I-D.foo".toList ∧
      t = "Front\n\n\nTitle\n\n1. References\n\n   [I-D.foo] Example\n".toList ∧ m = loneReference s ∧
      ListsOnly s (.text (.ofText none t)) ∧ ListsOnly s (.markup m) ∧
      Agree (.text (.ofText none t)) (.markup m) := by
  have ht : ListsOnly "I-D.foo".toList (.text (.ofText none
      "Front\n\n\nTitle\n\n1. References\n\n   [I-D.foo] Example\n".toList)) :=
    listsOnly_of_listedLabels (by decide +kernel)
  have hm := listsOnly_loneReference "I-D.foo".toList
  obtain ⟨-, -, hagree⟩ := agree_iff (s := "I-D.foo".toList) (List.all_eq_true.mp (by decide)) (by decide) ht hm
  exact ⟨_, _, _, rfl, rfl, rfl, ht, hm, hagree.mpr (.inl (by decide))⟩

/-- A label that contains the word. -/
theorem not_agree :
    (∀ c ∈ "overdraft".toList, labelChar c) ∧ namesRfc "overdraft".toList = false ∧
    ListsOnly "overdraft".toList (.text (.ofText none
      "Front\n\n\nTitle\n\n1. References\n\n   [overdraft] Example\n".toList)) ∧
    ListsOnly "overdraft".toList (.markup (loneReference "overdraft".toList)) ∧
    ¬Agree (.text (.ofText none "Front\n\n\nTitle\n\n1. References\n\n   [overdraft] Example\n".toList))
      (.markup (loneReference "overdraft".toList)) := by
  have hs : ∀ c ∈ "overdraft".toList, labelChar c := List.all_eq_true.mp (by decide)
  have hrfc : namesRfc "overdraft".toList = false := by decide
  have ht : ListsOnly "overdraft".toList (.text (.ofText none
      "Front\n\n\nTitle\n\n1. References\n\n   [overdraft] Example\n".toList)) :=
    listsOnly_of_listedLabels (by decide +kernel)
  have hm := listsOnly_loneReference "overdraft".toList
  refine ⟨hs, hrfc, ht, hm, ?_⟩
  rintro ⟨names, hnames, hnames', -⟩
  have hlisted := Except.ok.inj (hnames.symm.trans (referencedDrafts_text hs hrfc ht))
  have hnone := Except.ok.inj (hnames'.symm.trans (referencedDrafts_markup hs hrfc hm))
  rw [hlisted] at hnone
  revert hnone
  decide

end Rules
end DraftLint
