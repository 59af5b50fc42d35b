import DraftLint.Proofs.Markup.Naming
import DraftLint.Proofs.Registry

/-!
# Labels of a bibliography

No label is listed twice, and one that begins like that of an RFC goes on with a further word, so that
there is always a number to be taken from it.
-/

namespace DraftLint

namespace Markup

/-- A label that begins like that of an RFC has a second word. -/
def Numbered (label : Text) : Prop :=
  Text.startsWith "RFC ".toList label → ((Text.words label)[1]?).isSome

theorem numbered_of_append {rest : Text} (h : ∃ c ∈ rest, Text.isBlank c = false) :
    ((Text.words ("RFC ".toList ++ rest))[1]?).isSome := by
  rw [Text.words_rfc]
  cases hw : Text.words rest with
  | nil => exact absurd hw (Text.words_ne_nil h)
  | cons word others => rfl

theorem numbered_trim (t : Text) : Numbered (Text.trim t) := by
  intro h
  obtain ⟨rest, hrest⟩ := List.isPrefixOf_iff_prefix.mp h
  rw [← hrest]
  apply numbered_of_append
  rcases List.eq_nil_or_concat rest with rfl | ⟨u, c, rfl⟩
  · have hb : Text.isBlank ' ' = false :=
      Text.not_isBlank_of_trim_eq (t := t) (u := "RFC".toList) (by rw [← hrest]; rfl)
    exact absurd hb (by decide)
  · have hb : Text.isBlank c = false :=
      Text.not_isBlank_of_trim_eq (t := t) (u := "RFC ".toList ++ u) (by rw [← hrest]; simp)
    exact ⟨c, by simp, hb⟩

theorem numbered_of_not_startsWith {label : Text} (h : Text.startsWith "RFC ".toList label = false) :
    Numbered label := by
  intro hs
  rw [h] at hs
  cases hs

theorem numbered_ofNumeral {t label : Text} (h : Registry.ofNumeral t = .ok label) : Numbered label := by
  unfold Registry.ofNumeral at h
  split at h
  · obtain rfl := Except.ok.inj h
    exact fun _ => numbered_of_append (Text.exists_not_isBlank_ofInt _)
  · cases h

/-- The name of a draft does not begin like the label of an RFC. -/
theorem not_startsWith_draftLabel {label name : Text} (h : draftLabel? label = some name) :
    Text.startsWith "RFC ".toList name = false := by
  unfold draftLabel? at h
  obtain ⟨-, hd⟩ := Option.filter_eq_some_iff.mp h
  rw [Bool.eq_false_iff]
  intro hs
  obtain ⟨rest, rfl⟩ := List.isPrefixOf_iff_prefix.mp hs
  have hlower : Text.lower ("RFC ".toList ++ rest) =
      'r' :: Text.lowerFrom ['R'] ('F' :: 'C' :: ' ' :: rest) :=
    rfl
  rw [hlower] at hd
  simp [Text.startsWith] at hd

theorem Naming.numbered {naming : Naming} {label : Text} (h : naming.Proper)
    (hlabel : naming.label = .ok label) : Numbered label := by
  cases naming with
  | rfc digits => exact numbered_ofNumeral hlabel
  | draft name =>
    obtain rfl := Except.ok.inj hlabel
    obtain ⟨label, hname⟩ := h
    exact numbered_of_not_startsWith (not_startsWith_draftLabel hname)
  | written label' =>
    obtain rfl := Except.ok.inj hlabel
    obtain ⟨-, t, rfl⟩ := h
    exact numbered_trim t
  | nothing =>
    obtain rfl := Except.ok.inj hlabel
    exact numbered_of_not_startsWith rfl

namespace Element

variable {e : Element} {label : Text}

/-- What the entries read so far have come to. -/
structure Listing (labels : List (Text × ReferenceKind)) : Prop where
  nodup : (labels.map (·.1)).Nodup
  numbered : ∀ l ∈ labels, Numbered l.1

theorem Listing.addLabel {labels labels' : List (Text × ReferenceKind)}
    {entry : Element × ReferenceKind} (h : Listing labels)
    (ha : Element.addLabel labels entry = .ok labels') : Listing labels' := by
  unfold Element.addLabel at ha
  cases hl : entry.1.documentLabel with
  | error f => simp [hl, bind, Except.bind] at ha
  | ok label =>
    simp only [hl, bind, Except.bind, pure, Except.pure, Except.ok.injEq] at ha
    split at ha
    · exact ha ▸ h
    · rename_i hnew
      subst ha
      simp only [Bool.or_eq_true, not_or, List.any_eq_true, not_exists, beq_iff_eq, not_and] at hnew
      constructor
      · rw [List.map_append, List.nodup_append]
        refine ⟨h.nodup, by simp, ?_⟩
        intro a ha b hb
        obtain ⟨l, hl, rfl⟩ := List.mem_map.mp ha
        simp only [List.map_cons, List.map_nil, List.mem_singleton] at hb
        rw [hb]
        exact hnew.2 l hl
      · intro l hm
        rcases List.mem_append.mp hm with hm | hm
        · exact h.numbered l hm
        · rw [List.mem_singleton.mp hm]
          rw [documentLabel_eq] at hl
          exact Naming.numbered (proper_naming entry.1) hl

theorem Listing.foldlM {entries : List (Element × ReferenceKind)}
    {labels labels' : List (Text × ReferenceKind)} (h : Listing labels)
    (hf : entries.foldlM Element.addLabel labels = .ok labels') : Listing labels' := by
  induction entries generalizing labels with
  | nil => exact Except.ok.inj hf ▸ h
  | cons entry entries ih =>
    rw [List.foldlM_cons] at hf
    cases ha : Element.addLabel labels entry with
    | error f => simp [ha, bind, Except.bind] at hf
    | ok next =>
      simp only [ha, bind, Except.bind] at hf
      exact ih (h.addLabel ha) hf

theorem listing_bibliography {root : Element} {labels : List (Text × ReferenceKind)}
    (h : root.bibliography = .ok labels) : Listing labels := by
  have hnil : Listing [] := ⟨by simp, by simp⟩
  exact hnil.foldlM h

section Numerals

/-- The numeral that series information gives for an RFC, the first that says something. -/
def seriesNumeral? : List Element → Option Text
  | [] => none
  | info :: rest =>
    let value := Text.trim (info.attributeText "value")
    if value.isEmpty then seriesNumeral? rest
    else match (info.attribute? "name").map Text.str with
      | some "RFC" => if Text.allDigits value then some value else none
      | some "Internet-Draft" => none
      | _ => seriesNumeral? rest

/-- The numeral that an entry gives for an RFC. -/
def rfcNumeral? (e : Element) : Option Text :=
  if e.name == includeName then (rfcFile.search? (e.attributeText "href")).bind (·.group? 1)
  else
    match (rfcAnchor.match? (Text.trim (e.attributeText "anchor"))).bind (·.group? 1) with
    | some number => some number
    | none => seriesNumeral? (e.childrenNamed "seriesInfo")

theorem seriesNumeral?_eq (infos : List Element) :
    seriesNumeral? infos = (seriesNaming? infos).bind Naming.numeral? := by
  refine series_eq_bind (fun value => if Text.allDigits value then some value else none) (fun _ => none) rfl
    (fun _ _ => rfl) (fun value => ?_) (fun value => (Naming.numeral?_ofLabel value).symm) infos
  split_ifs <;> rfl

theorem rfcNumeral?_eq (e : Element) : e.rfcNumeral? = e.naming.numeral? := by
  simp only [rfcNumeral?, naming, includedNaming]
  split_ifs
  · cases (rfcFile.search? (e.attributeText "href")).bind (·.group? 1) with
    | some digits => rfl
    | none =>
      cases ((draftFile.search? (e.attributeText "href")).bind (·.group? 1)).bind draftLabel? <;> rfl
  · cases (rfcAnchor.match? (Text.trim (e.attributeText "anchor"))).bind (·.group? 1) with
    | some digits => rfl
    | none =>
      simp only [seriesNumeral?_eq]
      cases seriesNaming? (e.childrenNamed "seriesInfo") with
      | some naming => rfl
      | none => exact (Naming.numeral?_ofLabel _).symm

/-- The bibliography can be read if all entries give numerals. -/
theorem exists_bibliography {root : Element}
    (h : ∀ entry ∈ root.entries, ∀ t ∈ entry.1.rfcNumeral?, t.IsNumeral) :
    ∃ labels, root.bibliography = .ok labels := by
  rw [exists_bibliography_iff]
  intro entry hentry
  have hnumeral := h entry hentry
  rw [rfcNumeral?_eq] at hnumeral
  cases hnaming : entry.1.naming with
  | rfc digits =>
    rw [hnaming] at hnumeral
    exact Registry.exists_ofNumeral (hnumeral digits rfl)
  | _ => exact ⟨_, rfl⟩

end Numerals

end Element
end Markup
end DraftLint
