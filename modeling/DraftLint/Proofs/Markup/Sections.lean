import Mathlib.Data.List.Perm.Basic
import DraftLint.Proofs.Attempts
import DraftLint.Markup.Document
import DraftLint.Proofs.Markup.Naming

/-!
# Kinds that sections inherit

A section of references whose title announces no kind should have that of the section around it, however far out
the title stands that announces one.  The bibliography goes through the entries section by section and looks at two
titles, that of the section and that of the one around it.  This comes to the same exactly if the labels first occur
in the order of the document and no title further out is needed where a label first occurs.
-/

namespace DraftLint.Markup

/-- The kind that the titles of sections inside one another announce, the innermost section first. -/
def inheritedKind : List Element → ReferenceKind
  | [] => .unclassified
  | innermost :: around =>
    match kindOfTitle innermost.title? with
    | .unclassified => inheritedKind around
    | kind => kind

/-- The sections of references directly around what an element holds, given those around the element. -/
def Element.around (sections : List Element) (e : Element) : List Element :=
  if e.isNamed "references" then e :: sections else []

/-- The node itself, if it is an entry of a section. -/
def Node.own (sections : List Element) : Node → List (Element × List Element)
  | .element tag content =>
    if (Element.mk tag content).isEntry && !sections.isEmpty then [(⟨tag, content⟩, sections)] else []
  | _ => []

mutual

/-- The entries at and inside a node in document order, each with the sections around it. -/
def Node.listed (sections : List Element) : Node → List (Element × List Element)
  | .text _ => []
  | .entity .. => []
  | .element tag content =>
    Node.own sections (.element tag content) ++ listedIn (Element.around sections ⟨tag, content⟩) content

/-- The entries at and inside nodes in document order. -/
def listedIn (sections : List Element) : List Node → List (Element × List Element)
  | [] => []
  | n :: nodes => n.listed sections ++ listedIn sections nodes

end

mutual

/-- The entries inside a node section by section: those that a section holds itself, and then those of sections
inside it. -/
def Node.sectioned (sections : List Element) : Node → List (Element × List Element)
  | .text _ => []
  | .entity .. => []
  | .element tag content =>
    content.flatMap (Node.own (Element.around sections ⟨tag, content⟩)) ++
      sectionedIn (Element.around sections ⟨tag, content⟩) content

/-- The entries inside nodes section by section. -/
def sectionedIn (sections : List Element) : List Node → List (Element × List Element)
  | [] => []
  | n :: nodes => n.sectioned sections ++ sectionedIn sections nodes

end

section Trees

theorem flatMap_own_nil (nodes : List Node) : nodes.flatMap (Node.own []) = [] := by
  simp only [List.flatMap_eq_nil_iff]
  rintro (_ | _ | _) - <;> simp [Node.own]

mutual

/-- In document order the same entries come as section by section. -/
theorem Node.perm_listed (sections : List Element) :
    (n : Node) → (n.listed sections).Perm (n.own sections ++ n.sectioned sections)
  | .text _ | .entity .. => .refl _
  | .element tag content => by
    rw [Node.listed, Node.sectioned]
    exact (perm_listedIn _ content).append_left _

theorem perm_listedIn (sections : List Element) :
    (nodes : List Node) →
      (listedIn sections nodes).Perm (nodes.flatMap (Node.own sections) ++ sectionedIn sections nodes)
  | [] => .refl _
  | n :: nodes => by
    rw [listedIn, sectionedIn, List.flatMap_cons]
    refine ((n.perm_listed sections).append (perm_listedIn sections nodes)).trans ?_
    rw [List.append_assoc, List.append_assoc]
    refine List.Perm.append_left _ ?_
    rw [← List.append_assoc, ← List.append_assoc]
    exact List.perm_append_comm.append_right _

end

mutual

/-- No entry of a section comes after a section inside it that has entries. -/
def Node.Tidy (sections : List Element) : Node → Prop
  | .text _ => True
  | .entity .. => True
  | .element tag content => TidyIn (Element.around sections ⟨tag, content⟩) content

def TidyIn (sections : List Element) : List Node → Prop
  | [] => True
  | n :: nodes =>
    n.Tidy sections ∧ (n.sectioned sections = [] ∨ nodes.flatMap (Node.own sections) = []) ∧ TidyIn sections nodes

end

mutual

theorem Node.listed_of_tidy {sections : List Element} :
    (n : Node) → n.Tidy sections → n.listed sections = n.own sections ++ n.sectioned sections
  | .text _, _ | .entity .., _ => rfl
  | .element tag content, h => by
    rw [Node.listed, Node.sectioned, listedIn_of_tidyIn content h]

theorem listedIn_of_tidyIn {sections : List Element} :
    (nodes : List Node) → TidyIn sections nodes →
      listedIn sections nodes = nodes.flatMap (Node.own sections) ++ sectionedIn sections nodes
  | [], _ => rfl
  | n :: nodes, ⟨hn, hfirst, hnodes⟩ => by
    rw [listedIn, sectionedIn, List.flatMap_cons, n.listed_of_tidy hn, listedIn_of_tidyIn nodes hnodes]
    rcases hfirst with hnil | hnil
    · simp [hnil]
    · simp [hnil]

end

/-- The kind of a section is the one that its own title and that of the section around it announce. -/
theorem referenceKind_eq (e p : Element) (sections : List Element) (tail : Text) :
    Occurrence.referenceKind ⟨e, some p, tail⟩ = inheritedKind ((e :: Element.around sections p).take 2) := by
  simp only [Occurrence.referenceKind, Element.around, List.take_succ_cons, inheritedKind]
  cases he : kindOfTitle e.title? with
  | normative | informative => rfl
  | unclassified =>
    by_cases hname : p.isNamed "references" = true
    · cases hp : kindOfTitle p.title? <;> simp [inheritedKind, hname, hp]
    · simp [inheritedKind, hname]

/-- The entry with the kind that the two innermost titles announce. -/
def twoTitles (entry : Element × List Element) : Element × ReferenceKind :=
  (entry.1, inheritedKind (entry.2.take 2))

/-- The entries that the sections among occurrences hold. -/
def entriesOf (os : List Occurrence) : List (Element × ReferenceKind) :=
  (os.filter fun o => o.element.isNamed "references").flatMap fun o =>
    (o.element.children.filter Element.isEntry).map fun e => (e, o.referenceKind)

theorem flatMap_own (sections : List Element) (tag : Tag) (content : List Node) :
    content.flatMap (Node.own sections) =
      if sections.isEmpty then [] else
        ((Element.mk tag content).children.filter Element.isEntry).map fun e => (e, sections) := by
  induction content with
  | nil => simp [Element.children]
  | cons n nodes ih =>
    rw [List.flatMap_cons, ih]
    cases n with
    | text t | entity name line => simp [Node.own, Element.children]
    | element tag' content' =>
      simp only [Node.own, Element.children, List.filterMap_cons, List.filter_cons]
      split_ifs <;> simp_all

mutual

theorem Node.entriesOf_occurrences (p : Element) (sections : List Element) (tail : Text) :
    (n : Node) → entriesOf (n.occurrences p tail) = (n.sectioned (p.around sections)).map twoTitles
  | .text _ | .entity .. => rfl
  | .element tag content => by
    have hinside := entriesOf_occurrencesIn ⟨tag, content⟩ (p.around sections) content
    rw [Node.occurrences, Node.sectioned, List.map_append, ← hinside, flatMap_own _ tag, entriesOf, entriesOf,
      List.filter_cons]
    by_cases hname : (Element.mk tag content).isNamed "references" = true
    · simp [hname, Element.around, referenceKind_eq _ _ sections, twoTitles, Function.comp_def]
    · simp [hname, Element.around]

theorem entriesOf_occurrencesIn (p : Element) (sections : List Element) :
    (nodes : List Node) → entriesOf (occurrencesIn p nodes) = (sectionedIn (p.around sections) nodes).map twoTitles
  | [] => rfl
  | n :: nodes => by
    rw [occurrencesIn, sectionedIn, List.map_append, ← n.entriesOf_occurrences, ← entriesOf_occurrencesIn p _ nodes,
      entriesOf, List.filter_append, List.flatMap_append]
    rfl

end

end Trees

section Firsts

variable {α β : Type}

/-- The first item with each label, unless the label is empty. -/
def firsts : List (Text × α) → List (Text × α)
  | [] => []
  | l :: ls => if l.1.isEmpty then firsts ls else l :: (firsts ls).filter (·.1 != l.1)

theorem firsts_map (f : α → β) (ls : List (Text × α)) :
    firsts (ls.map fun l => (l.1, f l.2)) = (firsts ls).map fun l => (l.1, f l.2) := by
  induction ls with
  | nil => rfl
  | cons l ls ih =>
    rw [List.map_cons, firsts, firsts, ih]
    split_ifs
    · rfl
    · rw [List.map_cons, List.filter_map]
      rfl

theorem nodup_firsts (ls : List (Text × α)) : ((firsts ls).map (·.1)).Nodup := by
  induction ls with
  | nil => exact List.nodup_nil
  | cons l ls ih =>
    rw [firsts]
    split_ifs
    · exact ih
    · rw [List.map_cons, List.nodup_cons]
      refine ⟨?_, ih.sublist (List.filter_sublist.map _)⟩
      rintro hmem
      obtain ⟨l', hl', heq⟩ := List.mem_map.mp hmem
      have hne := (List.mem_filter.mp hl').2
      rw [bne_iff_ne] at hne
      exact hne heq

/-- The labels of entries, with what is known of each. -/
def labelled (entries : List (Element × α)) : Except Failure (List (Text × α)) :=
  entries.mapM fun entry => entry.1.documentLabel.map fun label => (label, entry.2)

theorem labelled_cons (entry : Element × α) (entries : List (Element × α)) :
    labelled (entry :: entries) =
      entry.1.documentLabel.bind fun label => (labelled entries).map ((label, entry.2) :: ·) := by
  rw [labelled, List.mapM_cons]
  cases entry.1.documentLabel with
  | error f => rfl
  | ok label =>
    change (labelled entries).bind (fun found => .ok ((label, entry.2) :: found)) = _
    cases labelled entries <;> rfl

/-- A bibliography grows at its end by the labels that are new. -/
theorem foldlM_addLabel_eq (entries : List (Element × ReferenceKind)) (labels : List (Text × ReferenceKind)) :
    entries.foldlM Element.addLabel labels =
      (labelled entries).map fun found => labels ++ (firsts found).filter fun l => !labels.any (·.1 == l.1) := by
  induction entries generalizing labels with
  | nil => simp [labelled, firsts, pure, Except.pure, Except.map]
  | cons entry entries ih =>
    rw [List.foldlM_cons, labelled_cons, Element.addLabel]
    cases entry.1.documentLabel with
    | error f => rfl
    | ok label =>
      simp only [bind, Except.bind, pure, Except.pure, ih]
      cases labelled entries with
      | error f => rfl
      | ok found =>
        simp only [Except.map, firsts]
        congr 1
        by_cases hempty : label.isEmpty = true
        · rw [if_pos hempty, hempty, Bool.true_or, if_pos rfl]
        · rw [if_neg hempty, Bool.eq_false_iff.mpr hempty, Bool.false_or, List.filter_cons, List.filter_filter]
          by_cases hold : labels.any (·.1 == label) = true
          · rw [if_pos hold, hold, Bool.not_true, if_neg Bool.false_ne_true]
            congr 1
            refine List.filter_congr fun l _ => ?_
            by_cases hl : l.1 = label
            · simp [hl, hold]
            · simp [hl]
          · rw [if_neg hold, Bool.eq_false_iff.mpr hold, Bool.not_false, if_pos rfl, List.append_assoc,
              List.singleton_append]
            refine congrArg (labels ++ _ :: ·) (List.filter_congr fun l _ => ?_)
            rw [List.any_append, Bool.not_or]
            simp [bne, Bool.beq_comm (a := label)]

theorem labelled_map (f : α → β) (entries : List (Element × α)) :
    labelled (entries.map fun entry => (entry.1, f entry.2)) =
      (labelled entries).map fun found => found.map fun l => (l.1, f l.2) := by
  induction entries with
  | nil => rfl
  | cons entry entries ih =>
    rw [List.map_cons, labelled_cons, labelled_cons, ih]
    cases entry.1.documentLabel with
    | error e => rfl
    | ok label => cases labelled entries <;> rfl

theorem labelled_map_firsts (f : α → β) (entries : List (Element × α)) :
    (labelled (entries.map fun entry => (entry.1, f entry.2))).map firsts =
      (labelled entries).map fun found => (firsts found).map fun l => (l.1, f l.2) := by
  rw [labelled_map]
  cases labelled entries with
  | error e => rfl
  | ok found => exact congrArg Except.ok (firsts_map f found)

/-- Only a number that cannot be read keeps a label from being told. -/
theorem eq_notANumber_of_labelled {entries : List (Element × α)} {f : Failure} (h : labelled entries = .error f) :
    f = .notANumber := by
  obtain ⟨before, entry, after, -, -, hentry⟩ := Attempts.mapM_eq_error_iff.mp h
  replace hentry : entry.1.documentLabel.map (fun label => (label, entry.2)) = .error f := hentry
  rw [Element.documentLabel_eq] at hentry
  cases hnaming : entry.1.naming with
  | rfc digits =>
    rw [hnaming, Naming.label, Registry.ofNumeral] at hentry
    cases hdigits : Text.integer? digits with
    | none =>
      rw [hdigits] at hentry
      exact (Except.error.inj hentry).symm
    | some n =>
      rw [hdigits] at hentry
      cases hentry
  | _ =>
    rw [hnaming] at hentry
    cases hentry

theorem labelled_error_of_perm {entries entries' : List (Element × α)} (h : entries.Perm entries') {f : Failure}
    (hf : labelled entries = .error f) : labelled entries' = .error f := by
  cases h' : labelled entries' with
  | error f' => rw [eq_notANumber_of_labelled hf, eq_notANumber_of_labelled h']
  | ok found =>
    obtain ⟨found', hfound⟩ := Attempts.exists_mapM_eq_ok_iff.mpr fun entry hentry =>
      Attempts.exists_mapM_eq_ok_iff.mp ⟨found, h'⟩ entry (h.subset hentry)
    rw [labelled, hfound] at hf
    cases hf

/-- Lists with the same labels are the same if each label goes with the same in both. -/
theorem map_eq_map_iff {γ : Type} (f : α → γ) (g : β → γ) (ls : List (Text × α)) {ls' : List (Text × β)}
    (hnodup : (ls'.map (·.1)).Nodup) :
    (ls.map fun l => (l.1, f l.2)) = (ls'.map fun l => (l.1, g l.2)) ↔
      ls.map (·.1) = ls'.map (·.1) ∧ ∀ label a b, (label, a) ∈ ls → (label, b) ∈ ls' → f a = g b := by
  induction ls generalizing ls' with
  | nil => cases ls' <;> simp
  | cons l ls ih =>
    cases ls' with
    | nil => simp
    | cons l' ls' =>
      rw [List.map_cons, List.nodup_cons] at hnodup
      obtain ⟨hfresh, hnodup⟩ := hnodup
      simp only [List.map_cons, List.cons.injEq, Prod.mk.injEq, ih hnodup]
      constructor
      · rintro ⟨⟨hlabel, hvalue⟩, hlabels, hvalues⟩
        refine ⟨⟨hlabel, hlabels⟩, fun label a b ha hb => ?_⟩
        have hold {a : α} (ha : (label, a) ∈ ls) : label ≠ l'.1 := by
          rintro rfl
          exact hfresh (hlabels ▸ List.mem_map_of_mem ha)
        have hold' {b : β} (hb : (label, b) ∈ ls') : label ≠ l'.1 := by
          intro heq
          exact hfresh (heq ▸ List.mem_map_of_mem hb)
        rcases List.mem_cons.mp ha with rfl | ha
        · rcases List.mem_cons.mp hb with rfl | hb
          · exact hvalue
          · exact absurd hlabel (hold' hb)
        · rcases List.mem_cons.mp hb with rfl | hb
          · exact absurd rfl (hold ha)
          · exact hvalues label a b ha hb
      · rintro ⟨⟨hlabel, hlabels⟩, hvalues⟩
        refine ⟨⟨hlabel, hvalues l.1 _ _ List.mem_cons_self (hlabel ▸ List.mem_cons_self)⟩, hlabels, ?_⟩
        exact fun label a b ha hb => hvalues label a b (List.mem_cons_of_mem _ ha) (List.mem_cons_of_mem _ hb)

end Firsts

namespace Element

/-- The entries in document order, each with the sections around it. -/
def listed (root : Element) : List (Element × List Element) :=
  (root.childrenNamed "back").flatMap fun back => listedIn [] back.content

/-- The entries section by section. -/
def sectioned (root : Element) : List (Element × List Element) :=
  (root.childrenNamed "back").flatMap fun back => sectionedIn [] back.content

/-- The labels of all documents listed in the order of the document, with the kind that the section inherits that
lists each first. -/
def inheritingBibliography (root : Element) : Except Failure (List (Text × ReferenceKind)) :=
  (labelled (root.listed.map fun entry => (entry.1, inheritedKind entry.2))).map firsts

theorem perm_listed (root : Element) : root.listed.Perm root.sectioned := by
  refine List.Perm.flatMap_left _ fun back _ => ?_
  have hperm := perm_listedIn [] back.content
  rwa [flatMap_own_nil, List.nil_append] at hperm

theorem entries_eq (root : Element) : root.entries = root.sectioned.map twoTitles := by
  rw [entries, referenceSections, sectioned, List.flatMap_assoc, List.map_flatMap]
  refine List.flatMap_congr fun back hback => ?_
  have hname : back.isNamed "references" = false := by
    have hback := (List.mem_filter.mp hback).2
    rw [isNamed, beq_iff_eq] at hback
    rw [isNamed, hback]
    decide
  have hin := entriesOf_occurrencesIn back [] back.content
  rwa [around, hname] at hin

theorem bibliography_eq (root : Element) :
    root.bibliography = (labelled (root.sectioned.map twoTitles)).map firsts := by
  rw [bibliography, foldlM_addLabel_eq, entries_eq]
  simp

/-- No section in the back matter lists a document after a section inside it that lists some. -/
def Tidy (root : Element) : Prop :=
  ∀ back ∈ root.childrenNamed "back", TidyIn [] back.content

theorem listed_of_tidy {root : Element} (h : root.Tidy) : root.listed = root.sectioned := by
  refine List.flatMap_congr fun back hback => ?_
  rw [listedIn_of_tidyIn back.content (h back hback), flatMap_own_nil, List.nil_append]

/-- The bibliography has the labels in the order of the document, each with the kind that its section inherits,
exactly if the labels first occur in that order and two titles tell the kind where they do.  That is so in particular
if sections are tidy and two titles always tell the kind. -/
theorem bibliography_eq_inheriting_iff (root : Element) :
    (root.bibliography = root.inheritingBibliography ↔
      ∀ found ordered, labelled root.sectioned = .ok found → labelled root.listed = .ok ordered →
        (firsts found).map (·.1) = (firsts ordered).map (·.1) ∧
          ∀ label sections sections', (label, sections) ∈ firsts found → (label, sections') ∈ firsts ordered →
            inheritedKind (sections.take 2) = inheritedKind sections') ∧
    (root.Tidy → (∀ entry ∈ root.listed, inheritedKind (entry.2.take 2) = inheritedKind entry.2) →
      root.bibliography = root.inheritingBibliography) := by
  rw [bibliography_eq, inheritingBibliography]
  constructor
  · have hfirsts := labelled_map_firsts (fun sections => inheritedKind (sections.take 2)) root.sectioned
    rw [show twoTitles = fun entry => (entry.1, inheritedKind (entry.2.take 2)) from rfl, hfirsts,
      labelled_map_firsts]
    cases hfound : labelled root.sectioned with
    | error f => simp [labelled_error_of_perm root.perm_listed.symm hfound, Except.map]
    | ok found =>
      cases hordered : labelled root.listed with
      | error f =>
        rw [labelled_error_of_perm root.perm_listed hordered] at hfound
        cases hfound
      | ok ordered =>
        have hmaps := map_eq_map_iff (fun sections => inheritedKind (sections.take 2)) inheritedKind (firsts found)
          (nodup_firsts ordered)
        simp only [Except.map, Except.ok.injEq, hmaps]
        refine ⟨?_, fun h => h found ordered rfl rfl⟩
        rintro h found' ordered' rfl rfl
        exact h
  · intro htidy hkinds
    rw [← listed_of_tidy htidy]
    refine congrArg (fun entries => (labelled entries).map firsts) (List.map_congr_left fun entry hentry => ?_)
    exact congrArg (entry.1, ·) (hkinds entry hentry)

/-- The kind is announced two sections further out, and an entry comes after a section inside its own. -/
theorem bibliography_ne_inheriting :
    (∃ m, Document.ofOctets none (Utf8.encode ("<rfc><back><references title=\"Normative\"><references><references>" ++
        "<reference anchor=\"RFC1\"/></references></references></references></back></rfc>").toList) = .ok m ∧
      m.root.bibliography = .ok [("RFC 1".toList, .unclassified)] ∧
      m.root.inheritingBibliography = .ok [("RFC 1".toList, .normative)]) ∧
    (∃ m, Document.ofOctets none (Utf8.encode ("<rfc><back><references title=\"Normative\"><references>" ++
        "<reference anchor=\"RFC1\"/></references><reference anchor=\"RFC2\"/></references></back></rfc>").toList) =
          .ok m ∧
      m.root.bibliography = .ok [("RFC 2".toList, .normative), ("RFC 1".toList, .normative)] ∧
      m.root.inheritingBibliography = .ok [("RFC 1".toList, .normative), ("RFC 2".toList, .normative)]) :=
  ⟨Attempts.exists_of_decide (by decide +kernel), Attempts.exists_of_decide (by decide +kernel)⟩

end Element

end DraftLint.Markup
