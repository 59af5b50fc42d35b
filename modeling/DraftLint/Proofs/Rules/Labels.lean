import DraftLint.Proofs.Rules.Replies
import DraftLint.Proofs.Text.Writing

/-!
# Numbers in the labels of a bibliography

A bibliography in markup can be read exactly if what its entries give as the number of an RFC is a numeral.
Its labels name RFCs by plain numerals exactly if moreover no label is taken as it is written that begins
like that of an RFC.
-/

namespace DraftLint

namespace Registry

/-- A numeral makes a label with the plain numeral of the same number. -/
theorem exists_ofRfc_of_isNumeral {t : Text} (h : t.IsNumeral) :
    ∃ n : Nat, ofNumeral t = .ok (ofRfc n) ∧ (Text.ofNat n).IsNumeral := by
  obtain ⟨n, hn, hlt⟩ := h.integer?
  have hmax : n < 10 ^ Text.maxNumeralDigits :=
    Nat.lt_of_lt_of_le hlt (Nat.pow_le_pow_right (by decide) h.length_le)
  refine ⟨n, ?_, Text.isNumeral_ofNat hmax⟩
  rw [ofNumeral, hn]

theorem ofRfc_injective : Function.Injective ofRfc :=
  fun _ _ h => Text.ofInt_injective (List.append_cancel_left h)

/-- A label with a plain numeral is normalized already. -/
theorem normalize_ofRfc {n : Nat} (h : (Text.ofNat n).IsNumeral) : normalize (ofRfc n) = .ok (ofRfc n) := by
  have hlabel := normalize_label h.ne_nil h.isDecimal
  rw [ofNumeral, Text.integer?_ofNat h] at hlabel
  exact hlabel

/-- The plain numeral is the second word of the label. -/
theorem words_ofRfc (n : Nat) : (Text.words (ofRfc n))[1]? = some (Text.ofNat n) := by
  have hblank : ∀ c ∈ Text.ofNat n, Text.isBlank c = false :=
    fun c hc => Text.not_isBlank_of_isDecimal (Text.isDecimal_ofNat n c hc)
  have hofRfc : ofRfc n = "RFC ".toList ++ Text.ofNat n := rfl
  rw [hofRfc, Text.words_rfc, Text.words_eq_singleton (Text.ofNat_ne_nil n) hblank]
  rfl

end Registry

namespace Markup

/-- What is named makes a label with which RFCs can be looked up: a number is a numeral, and so is what
follows in a written label that begins like that of an RFC. -/
def Naming.Sound : Naming → Prop
  | rfc digits => digits.IsNumeral
  | written label =>
    Text.startsWith "RFC ".toList label → ∃ n : Nat, label = Registry.ofRfc n ∧ (Text.ofNat n).IsNumeral
  | _ => True

/-- A label that begins like that of an RFC comes from a sound naming in its plain form. -/
theorem Naming.Sound.exists_ofRfc {naming : Naming} {label : Text} (h : naming.Sound)
    (hproper : naming.Proper) (hlabel : naming.label = .ok label)
    (hrfc : Text.startsWith "RFC ".toList label) :
    ∃ n : Nat, label = Registry.ofRfc n ∧ (Text.ofNat n).IsNumeral := by
  cases naming with
  | rfc digits =>
    obtain ⟨n, hn, hnumeral⟩ := Registry.exists_ofRfc_of_isNumeral h
    exact ⟨n, Except.ok.inj (hlabel.symm.trans hn), hnumeral⟩
  | draft name =>
    obtain ⟨label', hname⟩ := hproper
    obtain rfl := Except.ok.inj hlabel
    rw [not_startsWith_draftLabel hname] at hrfc
    cases hrfc
  | written label' =>
    obtain rfl := Except.ok.inj hlabel
    exact h hrfc
  | nothing =>
    obtain rfl := Except.ok.inj hlabel
    cases hrfc

/-- A sound naming has a label. -/
theorem Naming.Sound.exists_label {naming : Naming} (h : naming.Sound) :
    ∃ label, naming.label = .ok label := by
  cases naming with
  | rfc digits => exact Registry.exists_ofNumeral h
  | _ => exact ⟨_, rfl⟩

/-- What has a label is an RFC by a numeral, if it is an RFC. -/
theorem Naming.exists_label_iff {naming : Naming} (hproper : naming.Proper) :
    (∃ label, naming.label = .ok label) ↔ ∀ digits, naming = rfc digits → digits.IsNumeral := by
  constructor
  · rintro hlabel digits rfl
    exact Text.isNumeral_of_isSome_integer? hproper.1 hproper.2 (Registry.exists_ofNumeral_iff.mp hlabel)
  · intro h
    cases naming with
    | rfc digits => exact Registry.exists_ofNumeral (h digits rfl)
    | _ => exact ⟨_, rfl⟩

end Markup

namespace Rules

/-- The rules that look references up by their labels in a bibliography. -/
def labelled : List Rule :=
  [.downrefs, .normative, .informative, .unclassified]

/-- The labels of a bibliography can be told, those of RFCs are plain, the numbers taken from them can be
read, and no rule that looks them up fails unless the replies are to blame. -/
structure WellLabelled (m : Markup.Document) : Prop where
  plain : ∃ labels, m.root.bibliography = .ok labels ∧
    ∀ l ∈ labels, isRfc l → ∃ n : Nat, l.1 = Registry.ofRfc n
  numbers : ∀ k, ∃ numbers, referencedRfcs k (.markup m) = .ok numbers ∧
    ∀ v ∈ numbers, (Text.integer? v).isSome
  checks : ∀ r ∈ labelled, ∀ w, Suits w (.markup m) r → ((r.inquire (.markup m)).answer w).failure = none

section Sound

variable {m : Markup.Document} {labels : List (Text × ReferenceKind)}

/-- The labels of sound entries are plain. -/
theorem exists_ofRfc_of_sound (h : ∀ entry ∈ m.root.entries, entry.1.naming.Sound)
    (hlabels : m.root.bibliography = .ok labels) :
    ∀ l ∈ labels, isRfc l → ∃ n : Nat, l.1 = Registry.ofRfc n ∧ (Text.ofNat n).IsNumeral := by
  intro l hl hrfc
  obtain ⟨-, entry, hentry, hlabel⟩ := (Markup.Element.mem_bibliography hlabels).mp (List.mem_map_of_mem hl)
  exact (h entry hentry).exists_ofRfc (Markup.Element.proper_naming entry.1) hlabel hrfc

theorem GiveNumerals.failure_inquire (hlabels : m.root.bibliography = .ok labels) (h : GiveNumerals labels)
    {r : Rule} (hr : r ∈ labelled) {w : World} (hw : Suits w (.markup m) r) :
    ((r.inquire (.markup m)).answer w).failure = none := by
  have hkind : ∀ k, Suits.SuitsKind w (.markup m) k →
      ((currentRfcs k (.markup m)).answer w).failure = none := by
    intro k hk
    obtain ⟨numbers, hnumbers, hnumerals⟩ := h.exists_referencedRfcs hlabels k
    exact (failure_currentRfcs hnumbers hnumerals).mpr (hk numbers hnumbers)
  simp only [labelled, List.mem_cons, List.not_mem_nil, or_false] at hr
  rcases hr with rfl | rfl | rfl | rfl
  · obtain ⟨ls, hls, hnormal⟩ := h.exists_registryLabels hlabels
    exact (failure_downrefs hls hnormal).mpr hw
  · exact hkind .normative hw
  · exact hkind .informative hw
  · exact hkind .unclassified hw

theorem wellLabelled_of_sound (h : ∀ entry ∈ m.root.entries, entry.1.naming.Sound) : WellLabelled m := by
  obtain ⟨labels, hlabels⟩ := Markup.Element.exists_bibliography_iff.mpr
    fun entry hentry => (h entry hentry).exists_label
  have hplain := exists_ofRfc_of_sound h hlabels
  have hnumerals : GiveNumerals labels := by
    intro l hl hrfc
    obtain ⟨n, hn, hnumeral⟩ := hplain l hl hrfc
    exact ⟨Text.ofNat n, by rw [hn, Registry.words_ofRfc], hnumeral⟩
  refine ⟨⟨labels, hlabels, ?_⟩, ?_, ?_⟩
  · intro l hl hrfc
    obtain ⟨n, hn, -⟩ := hplain l hl hrfc
    exact ⟨n, hn⟩
  · intro k
    obtain ⟨numbers, hnumbers, hall⟩ := hnumerals.exists_referencedRfcs hlabels k
    refine ⟨numbers, hnumbers, fun v hv => ?_⟩
    obtain ⟨n, hn, -⟩ := (hall v hv).integer?
    exact Option.isSome_of_mem hn
  · intro r hr w hw
    exact hnumerals.failure_inquire hlabels hr hw

/-- The number in a label is among those of its kind. -/
theorem mem_referencedRfcs (hlabels : m.root.bibliography = .ok labels) {l : Text × ReferenceKind}
    (hl : l ∈ labels) (hrfc : isRfc l) {number : Text} (hnumber : (Text.words l.1)[1]? = some number)
    {numbers : List Text} (hnumbers : referencedRfcs l.2 (.markup m) = .ok numbers) : number ∈ numbers := by
  rw [referencedRfcs_markup, listedRfcs_markup hlabels] at hnumbers
  obtain rfl := Except.ok.inj hnumbers
  rw [mem_ofKind, List.mem_map]
  exact ⟨l, List.mem_filter.mpr ⟨hl, hrfc⟩, by rw [hnumber, Option.getD_some]⟩

theorem WellLabelled.sound (h : WellLabelled m) : ∀ entry ∈ m.root.entries, entry.1.naming.Sound := by
  obtain ⟨labels, hlabels, hplain⟩ := h.plain
  intro entry hentry
  have hexists := Markup.Element.exists_bibliography_iff.mp ⟨labels, hlabels⟩ entry hentry
  have hdigits := (Markup.Naming.exists_label_iff (Markup.Element.proper_naming entry.1)).mp hexists
  cases hnaming : entry.1.naming with
  | rfc digits => exact hdigits digits hnaming
  | draft name => trivial
  | nothing => trivial
  | written label =>
    intro hrfc
    have hne : label ≠ [] := by
      rintro rfl
      cases hrfc
    have hmem : label ∈ labels.map (·.1) :=
      (Markup.Element.mem_bibliography hlabels).mpr ⟨hne, entry, hentry, by rw [hnaming]; rfl⟩
    obtain ⟨l, hl, rfl⟩ := List.mem_map.mp hmem
    obtain ⟨n, hn⟩ := hplain l hl hrfc
    obtain ⟨numbers, hnumbers, hread⟩ := h.numbers l.2
    have hword : (Text.words l.1)[1]? = some (Text.ofNat n) := by
      rw [hn, Registry.words_ofRfc]
    have hsome := hread _ (mem_referencedRfcs hlabels hl hrfc hword hnumbers)
    refine ⟨n, hn, Text.ofNat_ne_nil n, Text.isDecimal_ofNat n, ?_⟩
    exact (Text.isSome_integer?_iff (Text.ofNat_ne_nil n) (Text.isDecimal_ofNat n)).mp hsome

/-- When a bibliography can be read, and when its labels are well formed. -/
theorem wellLabelled_iff (m : Markup.Document) :
    ((∃ labels, m.root.bibliography = .ok labels) ↔
      ∀ entry ∈ m.root.entries, ∀ digits, entry.1.naming = .rfc digits → digits.IsNumeral) ∧
    (WellLabelled m ↔ ∀ entry ∈ m.root.entries, entry.1.naming.Sound) := by
  refine ⟨?_, WellLabelled.sound, wellLabelled_of_sound⟩
  rw [Markup.Element.exists_bibliography_iff]
  exact forall₂_congr fun entry _ => Markup.Naming.exists_label_iff (Markup.Element.proper_naming entry.1)

/-- A superscript two where the number of an RFC should be. -/
theorem not_wellLabelled :
    ∃ m, Markup.Document.ofOctets none (Utf8.encode ("<rfc><back><references><reference anchor=\"a\">" ++
        "<seriesInfo name=\"RFC\" value=\"²\"/></reference></references></back></rfc>").toList) = .ok m ∧
      ¬WellLabelled m := by
  have hfails : (match Markup.Document.ofOctets none
      (Utf8.encode ("<rfc><back><references><reference anchor=\"a\">" ++
        "<seriesInfo name=\"RFC\" value=\"²\"/></reference></references></back></rfc>").toList) with
      | .error _ => false
      | .ok m => !m.root.bibliography.isOk) = true := by
    decide +kernel
  split at hfails
  · cases hfails
  · rename_i m hm
    refine ⟨m, hm, ?_⟩
    intro h
    obtain ⟨labels, hlabels, -⟩ := h.plain
    rw [hlabels] at hfails
    cases hfails

end Sound

end Rules
end DraftLint
