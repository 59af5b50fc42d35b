import DraftLint.Proofs.Offline
import DraftLint.Proofs.Review
import DraftLint.Proofs.Rules.Bibliography

/-!
# What rules make of replies

Six rules ask other sites.  If all numbers in a document are numerals, a reply keeps such a rule from its
verdict exactly if it has another form than the rule expects: something without items where RFCs should be
listed, a status or a state that is no text, or a link in the registry to an RFC with too many digits.
-/

namespace DraftLint

namespace Verdict

theorem failure_andThen {v v' : Verdict} :
    (v.andThen v').failure = none ↔ v.failure = none ∧ v'.failure = none := by
  unfold andThen
  cases h : v.failure <;> simp [h]

theorem failure_all {vs : List Verdict} : (all vs).failure = none ↔ ∀ v ∈ vs, v.failure = none := by
  induction vs with
  | nil => simp [all, clean]
  | cons v vs ih =>
    rw [List.forall_mem_cons, ← ih]
    exact failure_andThen

theorem failure_onValue {α : Type} {a : Except Failure α} {f : α → Verdict} :
    (onValue a f).failure = none ↔ ∃ x, a = .ok x ∧ (f x).failure = none := by
  cases a <;> simp [onValue, failed]

end Verdict

namespace Rules

open Lookup

section Single

variable {k : ReferenceKind}

/-- What the page about an RFC says can be used for references of a kind: its lists have items, and for a
normative reference its status is a text. -/
def Usable (k : ReferenceKind) (r : Reply) : Prop :=
  Listable r ∧ (k = .normative → ∀ v ∈ said? "status" r, v.isText)

theorem failure_recognized {number : Text} {status : Json} :
    (recognized k number status).failure = none ↔ (k = .normative → status.isText) := by
  unfold recognized
  split_ifs with hk
  · cases status with
    | text t =>
      simp only [Json.isText, implies_true, iff_true]
      split <;> rfl
    | _ => simp [Verdict.failed, Json.isText, hk]
  · simp [Verdict.clean, hk]

theorem failure_current {number : Text} {found : Option Rfc} :
    (current k number found).failure = none ↔
      (k = .normative → ∀ v ∈ found.bind (·.status), v.isText) := by
  unfold current
  cases found with
  | none => simp [Verdict.of]
  | some rfc =>
    cases hstatus : rfc.status with
    | none => simp [hstatus, Verdict.of]
    | some status =>
      simp only [hstatus, Verdict.failure_andThen, failure_recognized, Option.bind_some, Option.mem_def,
        Option.some.injEq, forall_eq']
      exact and_iff_left rfl

theorem failure_unpublished {name : Text} {found : Option Draft} :
    (unpublished name found).failure = none ↔ ∀ v ∈ found.bind (·.state), v.isText := by
  unfold unpublished
  cases found.bind (·.state) with
  | none => simp [Verdict.of]
  | some state =>
    cases state with
    | text t =>
      simp only [Option.mem_def, Option.some.injEq, forall_eq', Json.isText, iff_true]
      split <;> rfl
    | _ => simp [Verdict.failed, Json.isText]

end Single

section Documents

variable {d : Document}

/-- The numerals that the entries of a bibliography give for RFCs. -/
def givenNumerals : Document → List Text
  | .text _ => []
  | .markup m => m.root.entries.filterMap fun entry => entry.1.rfcNumeral?

/-- The numbers of the RFCs that the document says it changes in one way. -/
def changed (r : Relation) : Document → List Text
  | .text _ => []
  | .markup m => (claims m.root r).stated

/-- The RFCs that a document lists, obsoletes and updates are named by numerals. -/
structure CitesNumerals (d : Document) : Prop where
  given : ∀ n ∈ givenNumerals d, n.IsNumeral
  listed : ∀ listed, listedRfcs d = .ok listed → ∀ e ∈ listed, e.1.IsNumeral
  changed : ∀ r, ∀ n ∈ changed r d, n.IsNumeral

theorem CitesNumerals.exists_bibliography {m : Markup.Document} (h : CitesNumerals (.markup m)) :
    ∃ labels, m.root.bibliography = .ok labels := by
  apply Markup.Element.exists_bibliography
  intro entry hentry t ht
  exact h.given t (List.mem_filterMap.mpr ⟨entry, hentry, ht⟩)

theorem listedRfcs_markup {m : Markup.Document} {labels : List (Text × ReferenceKind)}
    (h : m.root.bibliography = .ok labels) :
    listedRfcs (.markup m) =
      .ok ((labels.filter isRfc).map fun l => (((Text.words l.1)[1]?).getD [], some l.2)) := by
  rw [listedRfcs, h]
  rfl

/-- The labels of RFCs give numerals. -/
def GiveNumerals (labels : List (Text × ReferenceKind)) : Prop :=
  ∀ l ∈ labels, isRfc l → ∃ number, (Text.words l.1)[1]? = some number ∧ number.IsNumeral

theorem GiveNumerals.exists_referencedRfcs {m : Markup.Document} {labels : List (Text × ReferenceKind)}
    (hlabels : m.root.bibliography = .ok labels) (h : GiveNumerals labels) (k : ReferenceKind) :
    ∃ numbers, referencedRfcs k (.markup m) = .ok numbers ∧ ∀ n ∈ numbers, n.IsNumeral := by
  refine ⟨_, by rw [referencedRfcs_markup, listedRfcs_markup hlabels]; rfl, ?_⟩
  intro n hn
  obtain ⟨l, hl, heq⟩ := List.mem_map.mp (mem_ofKind.mp hn)
  obtain ⟨hl, hrfc⟩ := List.mem_filter.mp hl
  obtain ⟨number, hnumber, hnumeral⟩ := h l hl hrfc
  rw [hnumber, Option.getD_some] at heq
  obtain rfl := (Prod.mk.inj heq).1
  exact hnumeral

theorem GiveNumerals.exists_registryLabels {m : Markup.Document} {labels : List (Text × ReferenceKind)}
    (hlabels : m.root.bibliography = .ok labels) (h : GiveNumerals labels) :
    ∃ ls, registryLabels (.markup m) = .ok ls ∧ ∀ l ∈ ls, ∃ label, Registry.normalize l = .ok label := by
  refine ⟨_, by rw [registryLabels, hlabels]; rfl, ?_⟩
  intro l hl
  obtain ⟨hl, hstart⟩ := List.mem_filter.mp hl
  obtain ⟨entry, hentry, rfl⟩ := List.mem_map.mp hl
  rcases Bool.or_eq_true_iff.mp hstart with hrfc | hdraft
  · obtain ⟨number, hnumber, hnumeral⟩ := h entry hentry hrfc
    exact Registry.exists_normalize_of_words hrfc hnumber hnumeral
  · obtain ⟨rest, hrest⟩ := List.isPrefixOf_iff_prefix.mp hdraft
    apply Registry.exists_normalize_of_mem
    rw [← hrest]
    exact .inl (List.mem_append_left _ (by decide))

theorem CitesNumerals.giveNumerals {m : Markup.Document} {labels : List (Text × ReferenceKind)}
    (h : CitesNumerals (.markup m)) (hlabels : m.root.bibliography = .ok labels) : GiveNumerals labels := by
  intro l hl hrfc
  obtain ⟨number, hnumber⟩ := Option.isSome_iff_exists.mp
    ((Markup.Element.listing_bibliography hlabels).numbered l hl hrfc)
  have hnumeral := h.listed _ (listedRfcs_markup hlabels) _ (List.mem_map_of_mem
    (f := fun l => (((Text.words l.1)[1]?).getD [], some l.2)) (List.mem_filter.mpr ⟨hl, hrfc⟩))
  rw [hnumber] at hnumeral
  exact ⟨number, hnumber, hnumeral⟩

/-- The references of a kind can be told, and they are numerals. -/
theorem CitesNumerals.exists_referencedRfcs (h : CitesNumerals d) (k : ReferenceKind) :
    ∃ numbers, referencedRfcs k d = .ok numbers ∧ ∀ n ∈ numbers, n.IsNumeral := by
  cases d with
  | text d =>
    refine ⟨_, rfl, ?_⟩
    intro n hn
    obtain ⟨e, he, rfl⟩ := List.mem_map.mp hn
    have hmem := List.mem_of_mem_filter he
    exact h.listed _ rfl _ (List.mem_map_of_mem (f := fun e => (e.value, e.kind)) hmem)
  | markup m =>
    obtain ⟨labels, hlabels⟩ := h.exists_bibliography
    exact GiveNumerals.exists_referencedRfcs hlabels (h.giveNumerals hlabels) k

theorem CitesNumerals.exists_referencedDrafts (h : CitesNumerals d) :
    ∃ names, referencedDrafts d = .ok names := by
  cases d with
  | text d => exact ⟨_, rfl⟩
  | markup m =>
    obtain ⟨labels, hlabels⟩ := h.exists_bibliography
    rw [referencedDrafts, hlabels]
    exact ⟨_, rfl⟩

/-- The labels to be looked for can be told, and all of them can be normalized. -/
theorem CitesNumerals.exists_registryLabels (h : CitesNumerals d) :
    ∃ labels, registryLabels d = .ok labels ∧ ∀ l ∈ labels, ∃ label, Registry.normalize l = .ok label := by
  cases d with
  | text d =>
    refine ⟨_, rfl, ?_⟩
    intro l hl
    rcases List.mem_append.mp hl with hl | hl
    · obtain ⟨e, he, rfl⟩ := List.mem_map.mp hl
      have hnumeral := h.listed _ rfl _ (List.mem_map_of_mem (f := fun e => (e.value, e.kind)) he)
      exact Registry.exists_normalize_of_isNumeral hnumeral
    · obtain ⟨e, -, hname⟩ := List.mem_filterMap.mp hl
      exact Registry.exists_normalize_of_mem (Text.mem_of_d_mem_lower (Citation.mem_lower_draftName hname))
  | markup m =>
    obtain ⟨labels, hlabels⟩ := h.exists_bibliography
    exact GiveNumerals.exists_registryLabels hlabels (h.giveNumerals hlabels)

end Documents

section Failures

variable {d : Document} {w : World}

/-- A rule for references of a kind fails on the first page that cannot be used. -/
theorem failure_currentRfcs {k : ReferenceKind} {numbers : List Text}
    (hk : referencedRfcs k d = .ok numbers) (h : ∀ n ∈ numbers, n.IsNumeral) :
    ((currentRfcs k d).answer w).failure = none ↔ ∀ n ∈ numbers, Usable k (Lookup.about w n) := by
  have hanswer : (currentRfcs k d).answer w = .onValue ((Lookup.rfcs numbers).answer w) fun rs =>
      .all ((numbers.zip rs).map fun e => current k e.1 e.2) := by
    unfold currentRfcs
    simp only [hk]
    exact Inquiry.answer_then ..
  rw [hanswer, Verdict.failure_onValue]
  have hcurrent : ∀ rs, (Lookup.rfcs numbers).answer w = .ok rs →
      ((Verdict.all ((numbers.zip rs).map fun e => current k e.1 e.2)).failure = none ↔
        ∀ n ∈ numbers, k = .normative → ∀ v ∈ said? "status" (Lookup.about w n), v.isText) := by
    intro rs hrs
    have htold := Attempts.mapM_eq_ok_iff.mp (Lookup.answer_rfcs_eq_ok_iff.mp hrs)
    rw [Verdict.failure_all, List.forall_mem_map]
    refine Attempts.forall_zip_iff (p := fun n r => (current k n r).failure = none) htold ?_
    intro n r hr
    rw [failure_current, Rfc.status_ofReply (Lookup.ofReply_of_told hr)]
  constructor
  · rintro ⟨rs, hrs, hall⟩ n hn
    exact ⟨(Lookup.exists_answer_rfcs_iff h).mp ⟨rs, hrs⟩ n hn, (hcurrent rs hrs).mp hall n hn⟩
  · intro husable
    obtain ⟨rs, hrs⟩ := (Lookup.exists_answer_rfcs_iff h).mpr fun n hn => (husable n hn).1
    exact ⟨rs, hrs, (hcurrent rs hrs).mpr fun n hn => (husable n hn).2⟩

theorem failure_unpublishedDrafts {names : List Text} (hd : referencedDrafts d = .ok names) :
    ((unpublishedDrafts d).answer w).failure = none ↔
      ∀ n ∈ names, ∀ v ∈ said? "state" (w (Site.draftData n)), v.isText := by
  have hanswer : (unpublishedDrafts d).answer w =
      .all ((names.zip ((Lookup.drafts names).answer w)).map fun e => unpublished e.1 e.2) := by
    unfold unpublishedDrafts
    simp only [hd]
    exact Inquiry.answer_then ..
  have htold : List.Forall₂ (fun n r => r = Draft.ofReply (w (Site.draftData n))) names
      ((Lookup.drafts names).answer w) := by
    rw [Lookup.answer_drafts, List.forall₂_map_right_iff, List.forall₂_same]
    exact fun _ _ => rfl
  rw [hanswer, Verdict.failure_all, List.forall_mem_map]
  refine Attempts.forall_zip_iff (p := fun n r => (unpublished n r).failure = none) htold ?_
  rintro n r rfl
  rw [failure_unpublished, Draft.state_ofReply]

theorem answer_downrefs {labels : List Text} (hl : registryLabels d = .ok labels) :
    (downrefs d).answer w = .onValue ((Lookup.downrefs labels).answer w) fun ls =>
      .of (ls.map fun l => Finding.anywhere (.inDownrefRegistry l)) := by
  unfold downrefs
  simp only [hl]
  exact Inquiry.answer_then ..

theorem failure_downrefs {labels : List Text} (hl : registryLabels d = .ok labels)
    (h : ∀ l ∈ labels, ∃ label, Registry.normalize l = .ok label) :
    ((downrefs d).answer w).failure = none ↔
      ∀ page ∈ w Site.downrefRegistry, Registry.Readable page := by
  rw [answer_downrefs hl, Verdict.failure_onValue, ← Lookup.exists_answer_downrefs_iff h]
  exact exists_congr fun ls => and_iff_left rfl

/-- Both the RFCs that are obsoleted and those that are updated are looked up. -/
theorem failure_possibleSuccession (h : ∀ r, ∀ n ∈ changed r d, n.IsNumeral) :
    ((possibleSuccession d).answer w).failure = none ↔
      ∀ r, ∀ n ∈ changed r d, Listable (Lookup.about w n) := by
  cases d with
  | text d => simp [possibleSuccession, changed, Verdict.clean, pure, Inquiry.answer]
  | markup m =>
    have hboth : (∀ r, ∀ n ∈ changed r (.markup m), Listable (Lookup.about w n)) ↔
        (∀ n ∈ changed .obsoletes (.markup m), Listable (Lookup.about w n)) ∧
          ∀ n ∈ changed .updates (.markup m), Listable (Lookup.about w n) :=
      ⟨fun hall => ⟨hall .obsoletes, hall .updates⟩, fun hall r => by cases r; exacts [hall.1, hall.2]⟩
    rw [hboth, ← Lookup.exists_answer_rfcs_iff (h .obsoletes), ← Lookup.exists_answer_rfcs_iff (h .updates)]
    simp only [possibleSuccession, Inquiry.answer_then, changed]
    cases (Lookup.rfcs (claims m.root .obsoletes).stated).answer w with
    | error e => simp [Verdict.failed, pure, Inquiry.answer]
    | ok os =>
      simp only [Inquiry.answer_then, pure, Inquiry.answer, Verdict.failure_onValue]
      simp [Verdict.of]

end Failures

/-- The rules that ask other sites. -/
def asking : List Rule :=
  [.downrefs, .normative, .informative, .unclassified, .drafts, .succession]

/-- What the sites reply about the document has the form that a rule expects. -/
def Suits (w : World) (d : Document) : Rule → Prop
  | .downrefs => ∀ page ∈ w Site.downrefRegistry, Registry.Readable page
  | .normative => SuitsKind .normative
  | .informative => SuitsKind .informative
  | .unclassified => SuitsKind .unclassified
  | .drafts => ∀ names, referencedDrafts d = .ok names →
      ∀ n ∈ names, ∀ v ∈ said? "state" (w (Site.draftData n)), v.isText
  | .succession => ∀ r, ∀ n ∈ changed r d, Listable (Lookup.about w n)
  | _ => True
where
  SuitsKind (k : ReferenceKind) : Prop :=
    ∀ numbers, referencedRfcs k d = .ok numbers → ∀ n ∈ numbers, Usable k (Lookup.about w n)

section Rules

variable {d : Document} {w : World}

theorem forall_eq_ok_iff {α : Type} {a : Except Failure α} {x : α} {p : α → Prop} (h : a = .ok x) :
    (∀ y, a = .ok y → p y) ↔ p x := by
  subst h
  simp

theorem CitesNumerals.failure_inquire (h : CitesNumerals d) {r : Rule} (hr : r ∈ asking) :
    ((r.inquire d).answer w).failure = none ↔ Suits w d r := by
  have hkind : ∀ k, ((currentRfcs k d).answer w).failure = none ↔ Suits.SuitsKind w d k := by
    intro k
    obtain ⟨numbers, hk, hnumerals⟩ := h.exists_referencedRfcs k
    rw [failure_currentRfcs hk hnumerals, Suits.SuitsKind, forall_eq_ok_iff hk]
  simp only [asking, List.mem_cons, List.not_mem_nil, or_false] at hr
  rcases hr with rfl | rfl | rfl | rfl | rfl | rfl
  · obtain ⟨labels, hlabels, hnormal⟩ := h.exists_registryLabels
    exact failure_downrefs hlabels hnormal
  · exact hkind .normative
  · exact hkind .informative
  · exact hkind .unclassified
  · obtain ⟨names, hnames⟩ := h.exists_referencedDrafts
    rw [Suits, forall_eq_ok_iff hnames]
    exact failure_unpublishedDrafts hnames
  · exact failure_possibleSuccession h.changed

theorem citesNumerals_text {d : Plain.Document} (h : ∀ e ∈ d.scan.items.listedRfcs, e.value.IsNumeral) :
    CitesNumerals (.text d) := by
  refine ⟨List.forall_mem_nil _, ?_, fun _ => List.forall_mem_nil _⟩
  intro listed hlisted e he
  obtain rfl := Except.ok.inj hlisted
  obtain ⟨entry, hentry, rfl⟩ := List.mem_map.mp he
  exact h entry hentry

end Rules

end Rules
end DraftLint
