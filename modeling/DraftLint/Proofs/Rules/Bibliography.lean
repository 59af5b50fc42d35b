import DraftLint.Proofs.Citation
import DraftLint.Proofs.Lookup
import DraftLint.Proofs.Markup.Labels
import DraftLint.Proofs.Plain.Listing
import DraftLint.Rule
import Mathlib.Data.List.Nodup

/-!
# Every reference is looked up

Three rules share the RFCs that a document lists among themselves, by the kind of the references.  In
markup every kind is one of the three.  In plain text a number that is listed outside a known subsection
has none, and no rule asks for it.
-/

namespace DraftLint

namespace Rules

/-- The kinds of references, in the order of their rules. -/
def kinds : List ReferenceKind :=
  [.normative, .informative, .unclassified]

/-- The rule for references of a kind. -/
def ruleFor : ReferenceKind → Rule
  | .normative => .normative
  | .informative => .informative
  | .unclassified => .unclassified

/-- The label is that of an RFC. -/
def isRfc (label : Text × ReferenceKind) : Bool :=
  Text.startsWith "RFC ".toList label.1

/-- The RFCs that the references list, each with its kind if it has one. -/
def listedRfcs : Document → Except Failure (List (Text × Option ReferenceKind))
  | .text d => .ok (d.scan.items.listedRfcs.map fun e => (e.value, e.kind))
  | .markup d => do
    let labels ← d.root.bibliography
    return (labels.filter isRfc).map fun l => (((Text.words l.1)[1]?).getD [], some l.2)

/-- The numbers of one kind. -/
def ofKind (k : ReferenceKind) (listed : List (Text × Option ReferenceKind)) : List Text :=
  (listed.filter fun e => e.2 == some k).map (·.1)

theorem mem_ofKind {v : Text} {k : ReferenceKind} {listed : List (Text × Option ReferenceKind)} :
    v ∈ ofKind k listed ↔ (v, some k) ∈ listed := by
  simp only [ofKind, List.mem_map, List.mem_filter, beq_iff_eq]
  constructor
  · rintro ⟨⟨v', kind⟩, ⟨hm, rfl⟩, rfl⟩
    exact hm
  · intro h
    exact ⟨(v, some k), ⟨h, rfl⟩, rfl⟩

theorem referencedRfcs_text (fileName : Option Text) (t : Text) (k : ReferenceKind) :
    referencedRfcs k (.text (Plain.Document.ofText fileName t)) =
      (listedRfcs (.text (Plain.Document.ofText fileName t))).map (ofKind k) := by
  have hdigits : ∀ e ∈ (Plain.Document.ofText fileName t).scan.items.listedRfcs,
      Text.allDigits e.value := by
    intro e he
    have hmem := List.mem_map_of_mem (f := Plain.Entry.value) he
    obtain ⟨l, -, -, hv, -⟩ := (Plain.Document.mem_listedRfcs_ofText fileName t e.value).mp hmem
    exact Citation.allDigits_of_mem_rfcsIn hv
  have hfilter : ((Plain.Document.ofText fileName t).scan.items.listedRfcs.filter fun e =>
        e.kind == some k && Text.allDigits e.value) =
      (Plain.Document.ofText fileName t).scan.items.listedRfcs.filter fun e => e.kind == some k := by
    apply List.filter_congr
    intro e he
    rw [hdigits e he, Bool.and_true]
  simp only [referencedRfcs, listedRfcs, Except.map, ofKind, hfilter, List.filter_map, List.map_map]
  rfl

theorem referencedRfcs_markup (d : Markup.Document) (k : ReferenceKind) :
    referencedRfcs k (.markup d) = (listedRfcs (.markup d)).map (ofKind k) := by
  simp only [referencedRfcs, listedRfcs]
  cases h : d.root.bibliography with
  | error f => rfl
  | ok labels =>
    have hnumbered := (Markup.Element.listing_bibliography h).numbered
    clear h
    simp only [bind, Except.bind, pure, Except.pure, Except.map, Except.ok.injEq, ofKind]
    induction labels with
    | nil => rfl
    | cons l labels ih =>
      have hlabels := ih fun l hl => hnumbered l (List.mem_cons_of_mem _ hl)
      by_cases hs : isRfc l = true
      · obtain ⟨number, hn⟩ := Option.isSome_iff_exists.mp (hnumbered l (by simp) hs)
        rw [List.filter_cons_of_pos (p := isRfc) hs, List.map_cons, hn, Option.getD_some]
        rw [isRfc] at hs
        by_cases hk : l.2 = k
        · rw [List.filterMap_cons_some (b := number) (by rw [hk, hs, beq_self_eq_true]; exact hn),
            List.filter_cons_of_pos (by simp [hk]), List.map_cons, hlabels]
        · rw [List.filterMap_cons_none (by simp [hk]), List.filter_cons_of_neg (by simp [hk]), hlabels]
      · rw [List.filter_cons_of_neg (p := isRfc) hs]
        rw [Bool.not_eq_true, isRfc] at hs
        rw [List.filterMap_cons_none (by rw [hs, Bool.and_false]; rfl), hlabels]

/-- If all have a kind, none is lost. -/
theorem perm_flatMap_ofKind {listed : List (Text × Option ReferenceKind)}
    (h : ∀ e ∈ listed, e.2 ≠ none) :
    (kinds.flatMap fun k => ofKind k listed).Perm (listed.map (·.1)) := by
  simp only [kinds, List.flatMap_cons, List.flatMap_nil, List.append_nil]
  induction listed with
  | nil => exact .nil
  | cons e listed ih =>
    have hperm := ih fun e he => h e (List.mem_cons_of_mem _ he)
    obtain ⟨number, kind⟩ := e
    cases kind with
    | none => exact absurd rfl (h _ (List.mem_cons_self ..))
    | some kind =>
      cases kind with
      | normative => exact hperm.cons number
      | informative => exact List.perm_middle.trans (hperm.cons number)
      | unclassified =>
        rw [← List.append_assoc] at hperm ⊢
        exact List.perm_middle.trans (hperm.cons number)

/-- The rule for a kind asks for the RFCs of that kind, in their order. -/
theorem needed_ruleFor {d : Document} {k : ReferenceKind} {numbers : List Text}
    (h : referencedRfcs k d = .ok numbers) (s : Standard) (w : World) :
    ((ruleFor k).verdict s true d).needed w = numbers.filterMap Lookup.pageOf? := by
  have hpages : (Lookup.rfcs numbers).needed w = numbers.filterMap Lookup.pageOf? := by
    simp only [Lookup.rfcs]
    rw [Inquiry.needed_then, Inquiry.needed_pages, List.filterMap_map]
    exact List.append_nil _
  have hcurrent : (currentRfcs k d).needed w = numbers.filterMap Lookup.pageOf? := by
    unfold currentRfcs
    simp only [h]
    rw [Inquiry.needed_then, hpages]
    exact List.append_nil _
  have hinquire : (ruleFor k).inquire d = currentRfcs k d := by
    cases k <;> rfl
  simp only [Rule.verdict, if_true, hinquire]
  rw [Inquiry.needed_then, hcurrent]
  exact List.append_nil _

/-- Each RFC that the references list is returned for exactly one kind, and exactly one of the three rules
asks for it. -/
def LooksUpEach (d : Document) : Prop :=
  ∀ listed, listedRfcs d = .ok listed →
    ∃ returned : ReferenceKind → List Text,
      (∀ k, referencedRfcs k d = .ok (returned k)) ∧
      (kinds.flatMap returned).Perm (listed.map (·.1)) ∧
      ∀ s w, (kinds.flatMap fun k => ((ruleFor k).verdict s true d).needed w).Perm
        (listed.filterMap fun e => Lookup.pageOf? e.1)

theorem looksUpEach_of_kinds {d : Document}
    (hkinds : ∀ k, referencedRfcs k d = (listedRfcs d).map (ofKind k))
    (h : ∀ listed, listedRfcs d = .ok listed → ∀ e ∈ listed, e.2 ≠ none) : LooksUpEach d := by
  intro listed hl
  have hok : ∀ k, referencedRfcs k d = .ok (ofKind k listed) := by
    intro k
    rw [hkinds k, hl]
    rfl
  have hperm := perm_flatMap_ofKind (h listed hl)
  refine ⟨fun k => ofKind k listed, hok, hperm, ?_⟩
  intro s w
  have hneeded : (kinds.flatMap fun k => ((ruleFor k).verdict s true d).needed w) =
      (kinds.flatMap fun k => ofKind k listed).filterMap Lookup.pageOf? := by
    rw [List.filterMap_flatMap]
    apply List.flatMap_congr
    intro k _
    exact needed_ruleFor (hok k) s w
  have hpages := hperm.filterMap Lookup.pageOf?
  rw [List.filterMap_map] at hpages
  rw [hneeded]
  exact hpages

/-- Which RFCs the rules for references look up.  In plain text it is all of them exactly if each is listed
under a heading that gives it a kind. -/
theorem looksUpEach_iff (fileName : Option Text) (t : Text) (m : Markup.Document) :
    (∀ k, referencedRfcs k (.text (.ofText fileName t)) =
      (listedRfcs (.text (.ofText fileName t))).map (ofKind k)) ∧
    (∀ k, referencedRfcs k (.markup m) = (listedRfcs (.markup m)).map (ofKind k)) ∧
    (LooksUpEach (.text (.ofText fileName t)) ↔
      ∀ e ∈ (Plain.Document.ofText fileName t).scan.items.listedRfcs, e.kind ≠ none) ∧
    LooksUpEach (.markup m) := by
  refine ⟨referencedRfcs_text fileName t, referencedRfcs_markup m, ⟨?_, ?_⟩, ?_⟩
  · intro h e he hnone
    obtain ⟨returned, hreturned, hperm, -⟩ := h _ rfl
    have hmem := hperm.mem_iff.mpr (List.mem_map_of_mem (List.mem_map_of_mem he))
    obtain ⟨k, -, hk⟩ := List.mem_flatMap.mp hmem
    have hkind := hreturned k
    rw [referencedRfcs_text] at hkind
    rw [← Except.ok.inj hkind] at hk
    replace hk := mem_ofKind.mp hk
    obtain ⟨e', he', heq⟩ := List.mem_map.mp hk
    obtain ⟨hvalue, hkind⟩ := Prod.mk.inj heq
    have hsame := List.inj_on_of_nodup_map
      (Plain.Document.nodup_listedRfcs_ofText fileName t) he' he hvalue
    rw [hsame, hnone] at hkind
    cases hkind
  · intro h
    refine looksUpEach_of_kinds (referencedRfcs_text fileName t) ?_
    intro listed hl e he
    obtain rfl := Except.ok.inj hl
    obtain ⟨entry, hentry, rfl⟩ := List.mem_map.mp he
    exact h entry hentry
  · refine looksUpEach_of_kinds (referencedRfcs_markup m) ?_
    intro listed hl e he
    simp only [listedRfcs] at hl
    cases hb : m.root.bibliography with
    | error f =>
      rw [hb] at hl
      cases hl
    | ok labels =>
      rw [hb] at hl
      obtain rfl := Except.ok.inj hl
      obtain ⟨l, -, rfl⟩ := List.mem_map.mp he
      simp

/-- A reference under a heading that names no kind. -/
theorem not_looksUpEach :
    ¬LooksUpEach (.text (.ofText none
      "Front\n\n\nTitle\n\n1. References\n\n   [RFC1234] Example\n".toList)) := by
  intro h
  obtain ⟨returned, hreturned, hperm, -⟩ := h _ rfl
  have hlength := hperm.length_eq
  have hnone : ∀ k, returned k = [] := by
    intro k
    rw [← Except.ok.inj (hreturned k)]
    cases k <;> decide +kernel
  simp only [kinds, List.flatMap_cons, List.flatMap_nil, hnone] at hlength
  revert hlength
  decide +kernel

end Rules
end DraftLint
