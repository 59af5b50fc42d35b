import DraftLint.Markup.Bibliography
import DraftLint.Proofs.Pattern.Matching
import DraftLint.Proofs.Text.Case
import DraftLint.Proofs.Text.Numeral
import Mathlib.Data.List.Basic

/-!
# What entries name

An entry of a bibliography names an RFC by digits, a draft, or whatever bears the label that is written
there.  Its label follows from that, and the labels of a bibliography are those of its entries.
-/

namespace DraftLint

namespace Markup

open Pattern

/-- What an entry of a bibliography names. -/
inductive Naming where
  /-- An RFC by the digits of its number. -/
  | rfc (digits : Text)
  /-- A draft by its name without version. -/
  | draft (name : Text)
  /-- Something that is neither, by its label. -/
  | written (label : Text)
  | nothing

namespace Naming

/-- What a label names that is not that of an RFC. -/
def ofLabel (label : Text) : Naming :=
  match draftLabel? label with
  | some name => draft name
  | none => written label

/-- The label in a bibliography, empty if nothing is named. -/
def label : Naming → Except Failure Text
  | rfc digits => Registry.ofNumeral digits
  | draft name => .ok name
  | written label => .ok label
  | nothing => .ok []

def numeral? : Naming → Option Text
  | rfc digits => some digits
  | _ => none

/-- What an entry can name at all.  The digits may be ornamental. -/
def Proper : Naming → Prop
  | rfc digits => digits ≠ [] ∧ ∀ c ∈ digits, Text.isDigitLike c
  | draft name => ∃ label, draftLabel? label = some name
  | written label => draftLabel? label = none ∧ ∃ t, label = Text.trim t
  | nothing => True

theorem label_ofLabel (t : Text) : (ofLabel t).label = .ok (draftOr t) := by
  rw [ofLabel, draftOr]
  cases draftLabel? t <;> rfl

theorem numeral?_ofLabel (t : Text) : (ofLabel t).numeral? = none := by
  rw [ofLabel]
  cases draftLabel? t <;> rfl

theorem proper_ofLabel (t : Text) : (ofLabel (Text.trim t)).Proper := by
  rw [ofLabel]
  cases h : draftLabel? (Text.trim t) with
  | some name => exact ⟨_, h⟩
  | none => exact ⟨h, t, rfl⟩

end Naming

section Digits

theorem encloses_rfcFile : rfcFile.Encloses fun _ p => p = times 4 (one .decimal) := by
  simp [rfcFile, all, lit, literal, Encloses, times, decimal]

theorem encloses_rfcAnchor :
    rfcAnchor.Encloses fun _ p => p = atLeastOnce (one CharSet.decimal.ignoreCase) := by
  simp [rfcAnchor, wholeLine, all, lit, literal, ignoreCase, Encloses, maybe, space, textStart, lineEnd,
    decimals, decimal, atLeastOnce]

theorem proper_of_rfcFile {href digits : Text}
    (h : (rfcFile.search? href).bind (·.group? 1) = some digits) : (Naming.rfc digits).Proper := by
  obtain ⟨m, hm, hgroup⟩ := Option.bind_eq_some_iff.mp h
  obtain ⟨c, u, hu⟩ := reads_of_searchFrom hm
  obtain ⟨p, s, s', rfl, hread⟩ := group?_of_reads encloses_rfcFile hu hgroup
  obtain ⟨hlength, hdecimal⟩ := hread.of_times_one
  exact ⟨List.ne_nil_of_length_eq_add_one hlength,
    fun c hc => Text.isDigitLike_of_isDecimal (hdecimal c hc)⟩

theorem proper_of_rfcAnchor {anchor digits : Text}
    (h : (rfcAnchor.match? anchor).bind (·.group? 1) = some digits) : (Naming.rfc digits).Proper := by
  obtain ⟨m, hm, hgroup⟩ := Option.bind_eq_some_iff.mp h
  obtain ⟨u, hu⟩ := reads_of_match? hm
  obtain ⟨p, s, s', rfl, hread⟩ := group?_of_reads encloses_rfcAnchor hu hgroup
  obtain ⟨hne, hdecimal⟩ := hread.of_atLeastOnce_one
  exact ⟨hne, fun c hc => Text.isDigitLike_of_isDecimal (Text.isDecimal_of_ignoreCase (hdecimal c hc))⟩

theorem proper_of_allDigits {t : Text} (h : Text.allDigits t) : (Naming.rfc t).Proper := by
  simp only [Text.allDigits, Bool.and_eq_true, Bool.not_eq_true', List.isEmpty_eq_false_iff,
    List.all_eq_true] at h
  exact h

end Digits

namespace Element

/-- What an included file describes. -/
def includedNaming (e : Element) : Naming :=
  let href := e.attributeText "href"
  match (rfcFile.search? href).bind (·.group? 1) with
  | some digits => .rfc digits
  | none => match ((draftFile.search? href).bind (·.group? 1)).bind draftLabel? with
    | some name => .draft name
    | none => .nothing

/-- What series information names, the first that says something. -/
def seriesNaming? : List Element → Option Naming
  | [] => none
  | info :: rest =>
    let value := Text.trim (info.attributeText "value")
    if value.isEmpty then seriesNaming? rest
    else match (info.attribute? "name").map Text.str with
      | some "RFC" => some (if Text.allDigits value then .rfc value else .nothing)
      | some "Internet-Draft" => some (.ofLabel value)
      | _ => seriesNaming? rest

/-- What an entry names. -/
def naming (e : Element) : Naming :=
  if e.name == includeName then e.includedNaming
  else
    let anchor := Text.trim (e.attributeText "anchor")
    match (rfcAnchor.match? anchor).bind (·.group? 1) with
    | some digits => .rfc digits
    | none => (seriesNaming? (e.childrenNamed "seriesInfo")).getD (.ofLabel anchor)

theorem includedLabel_eq (e : Element) : e.includedLabel = e.includedNaming.label := by
  simp only [includedLabel, includedNaming]
  cases (rfcFile.search? (e.attributeText "href")).bind (·.group? 1) with
  | some digits => rfl
  | none =>
    cases (draftFile.search? (e.attributeText "href")).bind (·.group? 1) with
    | none => rfl
    | some label =>
      simp only [Option.bind_some]
      cases draftLabel? label <;> rfl

/-- Information about another series is passed over. -/
theorem other_series {α : Type} {name : Option String} {rfc draft rest : α} :
    name ≠ some "RFC" → name ≠ some "Internet-Draft" →
      (match name with
        | some "RFC" => rfc
        | some "Internet-Draft" => draft
        | _ => rest) = rest := by
  intro hrfc hdraft
  split
  · exact absurd rfl hrfc
  · exact absurd rfl hdraft
  · rfl

/-- What is read of series information in this way depends on what that names. -/
theorem series_eq_bind {β : Type} {read : List Element → Option β} (rfc draft : Text → Option β) {g : Naming → Option β}
    (hnil : read [] = none)
    (hcons : ∀ info rest, read (info :: rest) =
      if (Text.trim (info.attributeText "value")).isEmpty then read rest
      else match (info.attribute? "name").map Text.str with
        | some "RFC" => rfc (Text.trim (info.attributeText "value"))
        | some "Internet-Draft" => draft (Text.trim (info.attributeText "value"))
        | _ => read rest)
    (hrfc : ∀ value, rfc value = g (if Text.allDigits value then .rfc value else .nothing))
    (hdraft : ∀ value, draft value = g (.ofLabel value)) (infos : List Element) :
    read infos = (seriesNaming? infos).bind g := by
  induction infos with
  | nil => exact hnil
  | cons info infos ih =>
    rw [hcons, seriesNaming?]
    by_cases hempty : (Text.trim (info.attributeText "value")).isEmpty = true
    · rw [if_pos hempty, if_pos hempty]
      exact ih
    · rw [if_neg hempty, if_neg hempty]
      generalize (info.attribute? "name").map Text.str = name
      by_cases hname : name = some "RFC"
      · subst hname
        exact hrfc _
      · by_cases hname' : name = some "Internet-Draft"
        · subst hname'
          exact hdraft _
        · refine (other_series hname hname').trans (ih.trans (congrArg (Option.bind · g) ?_))
          exact (other_series hname hname').symm

theorem seriesLabel?_eq (infos : List Element) :
    seriesLabel? infos = (seriesNaming? infos).map Naming.label := by
  rw [Option.map_eq_bind]
  refine series_eq_bind (fun value => some (if Text.allDigits value then Registry.ofNumeral value else .ok []))
    (fun value => some (.ok (draftOr value))) rfl (fun _ _ => rfl) (fun value => ?_) (fun value => ?_) infos
  · simp only [Function.comp]
    split_ifs <;> rfl
  · exact congrArg some (Naming.label_ofLabel _).symm

/-- The label of an entry is that of what it names. -/
theorem documentLabel_eq (e : Element) : e.documentLabel = e.naming.label := by
  simp only [documentLabel, naming]
  split_ifs
  · exact includedLabel_eq e
  · cases (rfcAnchor.match? (Text.trim (e.attributeText "anchor"))).bind (·.group? 1) with
    | some digits => rfl
    | none =>
      simp only [seriesLabel?_eq]
      cases seriesNaming? (e.childrenNamed "seriesInfo") with
      | some naming => rfl
      | none => exact (Naming.label_ofLabel _).symm

theorem proper_includedNaming (e : Element) : e.includedNaming.Proper := by
  simp only [includedNaming]
  split
  · rename_i digits hdigits
    exact proper_of_rfcFile hdigits
  · split
    · rename_i name hname
      obtain ⟨label, -, hlabel⟩ := Option.bind_eq_some_iff.mp hname
      exact ⟨label, hlabel⟩
    · trivial

theorem proper_seriesNaming {infos : List Element} {naming : Naming} (h : seriesNaming? infos = some naming) :
    naming.Proper := by
  induction infos with
  | nil => cases h
  | cons info infos ih =>
    simp only [seriesNaming?] at h
    split at h
    · exact ih h
    · split at h
      · obtain rfl := Option.some.inj h
        split_ifs with hdigits
        · exact proper_of_allDigits hdigits
        · trivial
      · obtain rfl := Option.some.inj h
        exact Naming.proper_ofLabel _
      · exact ih h

theorem proper_naming (e : Element) : e.naming.Proper := by
  simp only [naming]
  split_ifs
  · exact proper_includedNaming e
  · split
    · rename_i digits hdigits
      exact proper_of_rfcAnchor hdigits
    · cases hseries : seriesNaming? (e.childrenNamed "seriesInfo") with
      | none => exact Naming.proper_ofLabel _
      | some naming => exact proper_seriesNaming hseries

section Bibliography

variable {labels labels' : List (Text × ReferenceKind)} {entries : List (Element × ReferenceKind)}
  {l : Text}

theorem mem_addLabel {entry : Element × ReferenceKind} (h : addLabel labels entry = .ok labels') :
    ∃ label, entry.1.naming.label = .ok label ∧
      (l ∈ labels'.map (·.1) ↔ l ∈ labels.map (·.1) ∨ l ≠ [] ∧ l = label) := by
  unfold addLabel at h
  rw [documentLabel_eq] at h
  cases hlabel : entry.1.naming.label with
  | error f =>
    rw [hlabel] at h
    cases h
  | ok label =>
    rw [hlabel] at h
    obtain rfl := Except.ok.inj h
    refine ⟨label, rfl, ?_⟩
    split_ifs with hold
    · simp only [Bool.or_eq_true, List.isEmpty_iff, List.any_eq_true, beq_iff_eq] at hold
      refine (or_iff_left_of_imp ?_).symm
      rintro ⟨hne, rfl⟩
      obtain ⟨known, hknown, rfl⟩ := hold.resolve_left hne
      exact List.mem_map_of_mem hknown
    · simp only [Bool.or_eq_true, not_or, List.isEmpty_iff] at hold
      rw [List.map_append, List.mem_append, List.map_singleton, List.mem_singleton]
      exact or_congr_right ⟨fun hl => ⟨hl ▸ hold.1, hl⟩, And.right⟩

theorem mem_foldlM_addLabel (h : entries.foldlM addLabel labels = .ok labels') :
    l ∈ labels'.map (·.1) ↔
      l ∈ labels.map (·.1) ∨ l ≠ [] ∧ ∃ entry ∈ entries, entry.1.naming.label = .ok l := by
  induction entries generalizing labels with
  | nil =>
    obtain rfl := Except.ok.inj h
    simp
  | cons entry entries ih =>
    rw [List.foldlM_cons] at h
    obtain ⟨next, hnext, hrest⟩ : ∃ next, addLabel labels entry = .ok next ∧ entries.foldlM addLabel next = .ok labels' := by
      cases hn : addLabel labels entry with
      | error f =>
        rw [hn] at h
        cases h
      | ok next =>
        rw [hn] at h
        exact ⟨next, rfl, h⟩
    obtain ⟨label, hlabel, hmem⟩ := mem_addLabel (l := l) hnext
    rw [ih hrest, hmem, or_assoc, ← and_or_left, List.exists_mem_cons_iff, hlabel, Except.ok.injEq,
      eq_comm (a := l)]

/-- The labels of a bibliography are those of its entries. -/
theorem mem_bibliography {root : Element} (h : root.bibliography = .ok labels) :
    l ∈ labels.map (·.1) ↔ l ≠ [] ∧ ∃ entry ∈ root.entries, entry.1.naming.label = .ok l := by
  rw [mem_foldlM_addLabel h, List.map_nil]
  exact or_iff_right (List.not_mem_nil)

/-- A bibliography can be read exactly if each of its entries has a label. -/
theorem exists_bibliography_iff {root : Element} :
    (∃ labels, root.bibliography = .ok labels) ↔
      ∀ entry ∈ root.entries, ∃ label, entry.1.naming.label = .ok label := by
  unfold bibliography
  generalize root.entries = entries
  generalize ([] : List (Text × ReferenceKind)) = labels
  induction entries generalizing labels with
  | nil => exact iff_of_true ⟨labels, rfl⟩ (List.forall_mem_nil _)
  | cons entry entries ih =>
    rw [List.foldlM_cons, addLabel, documentLabel_eq, List.forall_mem_cons]
    cases entry.1.naming.label with
    | error f =>
      refine iff_of_false ?_ ?_
      · rintro ⟨labels', h⟩
        cases h
      · rintro ⟨⟨label, h⟩, -⟩
        cases h
    | ok label => exact (ih _).trans (and_iff_right ⟨label, rfl⟩).symm

end Bibliography

end Element
end Markup
end DraftLint
