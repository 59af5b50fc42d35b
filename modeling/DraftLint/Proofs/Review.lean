import DraftLint.Proofs.Grading
import DraftLint.Proofs.Inquiry
import DraftLint.Proofs.Text.Distinct
import DraftLint.Review

/-!
# Reviews in several modes

The verdicts of the rules do not depend on the mode, except that other sites are not asked for submission,
and what they tell would be silent there.  So the nits of any mode are those of the normal one, graded
anew.
-/

namespace DraftLint

namespace Nit

/-- Nits of the normal mode that are graded anew. -/
theorem sublistForall₂_regrade {m : Mode} {ns : List Nit} (h : ∀ n ∈ ns, n.IsNormal) :
    List.SublistForall₂ Milder (ns.filterMap (regrade? m)) ns := by
  induction ns with
  | nil => exact .nil
  | cons n ns ih =>
    have hns := ih fun n' hn' => h n' (List.mem_cons_of_mem _ hn')
    cases hr : n.regrade? m with
    | none =>
      rw [List.filterMap_cons_none hr]
      exact .cons_right hns
    | some n' =>
      rw [List.filterMap_cons_some hr]
      exact .cons ((h n (List.mem_cons_self ..)).milder hr) hns

/-- Forgiving drops none of them. -/
theorem forall₂_regrade {ns : List Nit} (h : ∀ n ∈ ns, n.IsNormal) :
    List.Forall₂ Milder (ns.filterMap (regrade? .forgiving)) ns := by
  induction ns with
  | nil => exact .nil
  | cons n ns ih =>
    have hn := h n (List.mem_cons_self ..)
    obtain ⟨n', hr⟩ := hn.forgiven
    rw [List.filterMap_cons_some hr]
    exact .cons (hn.milder hr) (ih fun n' hn' => h n' (List.mem_cons_of_mem _ hn'))

theorem anyError_of_sublist {ns' ns : List Nit} (h : List.SublistForall₂ Milder ns' ns)
    (he : anyError ns = false) : anyError ns' = false := by
  induction h with
  | nil => rfl
  | cons hm hs ih =>
    simp only [anyError, List.any_cons, Bool.or_eq_false_iff] at he ih ⊢
    refine ⟨?_, ih he.2⟩
    rw [Bool.eq_false_iff]
    intro hn
    rw [hm.isError hn] at he
    cases he.1
  | cons_right hs ih =>
    simp only [anyError, List.any_cons, Bool.or_eq_false_iff] at he ih ⊢
    exact ih he.2

end Nit

namespace Verdict

/-- All findings of the verdict are such. -/
def Only (P : Finding → Prop) (v : Verdict) : Prop :=
  ∀ f ∈ v.findings, P f

/-- Nothing of the verdict is reported for submission. -/
def Silent (v : Verdict) : Prop :=
  ∀ f ∈ v.findings, f.issue.gravity.submission = .silent

section Only

variable {P : Finding → Prop} {v v' : Verdict}

theorem only_clean : clean.Only P :=
  List.forall_mem_nil _

theorem only_failed (e : Failure) : (failed e).Only P :=
  List.forall_mem_nil _

theorem only_of {fs : List Finding} (h : ∀ f ∈ fs, P f) : (of fs).Only P :=
  h

theorem only_single {f : Finding} (h : P f) : (of [f]).Only P :=
  List.forall_mem_singleton.mpr h

theorem Only.andThen (h : v.Only P) (h' : v'.Only P) : (v.andThen v').Only P := by
  unfold Verdict.andThen
  split
  · exact h
  · exact List.forall_mem_append.mpr ⟨h, h'⟩

theorem only_all {vs : List Verdict} (h : ∀ v ∈ vs, v.Only P) : (all vs).Only P := by
  induction vs with
  | nil => exact only_clean
  | cons v vs ih =>
    exact (h v (List.mem_cons_self ..)).andThen (ih fun v' hv' => h v' (List.mem_cons_of_mem _ hv'))

theorem only_onValue {α : Type} {a : Except Failure α} {f : α → Verdict} (h : ∀ x, (f x).Only P) :
    (onValue a f).Only P := by
  unfold onValue
  split
  · exact h _
  · exact only_failed _

theorem Silent.filterMap_nit? (h : v.Silent) : v.findings.filterMap (Finding.nit? .submission) = [] := by
  rw [List.filterMap_eq_nil_iff]
  intro f hf
  unfold Finding.nit? Nit.graded?
  simp only [Gravity.inMode, h f hf]

end Only

end Verdict

/-- The finding is about the document as a whole and does not matter for submission. -/
def Finding.IsGeneral (f : Finding) : Prop :=
  f.places = none ∧ f.issue.gravity.submission = .silent

namespace Rules

open Finding Issue Verdict

/-! What other sites tell is general. -/

variable (w : World)

theorem isGeneral_downrefs (d : Document) : ((downrefs d).answer w).Only IsGeneral := by
  unfold downrefs
  cases registryLabels d with
  | error e => exact only_failed e
  | ok labels =>
    rw [Inquiry.answer_then]
    apply only_onValue
    intro found f hf
    obtain ⟨label, -, rfl⟩ := List.mem_map.mp hf
    exact ⟨rfl, rfl⟩

theorem isGeneral_recognized (k : ReferenceKind) (number : Text) (status : Json) :
    (recognized k number status).Only IsGeneral := by
  unfold recognized
  split_ifs
  · split
    · split_ifs
      · exact only_clean
      · exact only_single ⟨rfl, rfl⟩
    · exact only_failed _
  · exact only_clean

theorem isGeneral_current (k : ReferenceKind) (number : Text) (found : Option Lookup.Rfc) :
    (current k number found).Only IsGeneral := by
  have hundefined : (Verdict.of [anywhere (undefinedStatus k number)]).Only IsGeneral :=
    only_single ⟨rfl, rfl⟩
  unfold current
  split
  · exact hundefined
  · split
    · exact hundefined
    · apply (isGeneral_recognized _ _ _).andThen
      split_ifs
      · exact only_of (List.forall_mem_nil _)
      · exact only_single ⟨rfl, rfl⟩

theorem isGeneral_currentRfcs (k : ReferenceKind) (d : Document) : ((currentRfcs k d).answer w).Only IsGeneral := by
  unfold currentRfcs
  cases referencedRfcs k d with
  | error e => exact only_failed e
  | ok numbers =>
    rw [Inquiry.answer_then]
    apply only_onValue
    intro found
    apply only_all
    intro v hv
    obtain ⟨⟨number, rfc⟩, -, rfl⟩ := List.mem_map.mp hv
    exact isGeneral_current k number rfc

theorem isGeneral_unpublished (name : Text) (found : Option Lookup.Draft) :
    (unpublished name found).Only IsGeneral := by
  unfold unpublished
  split
  · exact only_single ⟨rfl, rfl⟩
  · split_ifs
    · exact only_single ⟨rfl, rfl⟩
    · exact only_clean
  · exact only_failed _

theorem isGeneral_unpublishedDrafts (d : Document) : ((unpublishedDrafts d).answer w).Only IsGeneral := by
  unfold unpublishedDrafts
  cases referencedDrafts d with
  | error e => exact only_failed e
  | ok names =>
    rw [Inquiry.answer_then]
    apply only_all
    intro v hv
    obtain ⟨⟨name, draft⟩, -, rfl⟩ := List.mem_map.mp hv
    exact isGeneral_unpublished name draft

theorem isGeneral_changeables (r : Relation) (c : Claims) (found : List (Option Lookup.Rfc)) :
    ∀ f ∈ changeables r c found, f.IsGeneral := by
  intro f hf
  obtain ⟨⟨number, rfc⟩, -, hf⟩ := List.mem_flatMap.mp hf
  simp only [changeable] at hf
  split at hf
  · obtain rfl := List.mem_singleton.mp hf
    exact ⟨rfl, rfl⟩
  · split_ifs at hf
    · obtain rfl := List.mem_singleton.mp hf
      exact ⟨rfl, rfl⟩
    · obtain rfl := List.mem_singleton.mp hf
      exact ⟨rfl, rfl⟩
    · cases hf

theorem isGeneral_possibleSuccession (d : Document) : ((possibleSuccession d).answer w).Only IsGeneral := by
  cases d with
  | text d => exact only_clean
  | markup d =>
    simp only [possibleSuccession]
    rw [Inquiry.answer_then]
    cases (Lookup.rfcs (claims d.root .obsoletes).stated).answer w with
    | error e => exact only_failed e
    | ok obsoleted =>
      rw [Inquiry.answer_then]
      apply only_onValue
      intro updated
      apply only_of
      intro f hf
      rcases List.mem_append.mp hf with hf | hf
      · exact isGeneral_changeables _ _ _ f hf
      · exact isGeneral_changeables _ _ _ f hf

end Rules

namespace Rule

theorem isGeneral_inquire (r : Rule) (d : Document) (w : World) :
    ((r.inquire d).answer w).Only Finding.IsGeneral := by
  cases r with
  | downrefs => exact Rules.isGeneral_downrefs w d
  | normative => exact Rules.isGeneral_currentRfcs w .normative d
  | informative => exact Rules.isGeneral_currentRfcs w .informative d
  | unclassified => exact Rules.isGeneral_currentRfcs w .unclassified d
  | drafts => exact Rules.isGeneral_unpublishedDrafts w d
  | succession => exact Rules.isGeneral_possibleSuccession w d
  | _ => exact Verdict.only_clean

/-- What other sites tell does not matter for submission. -/
theorem silent_inquire (r : Rule) (d : Document) (w : World) : ((r.inquire d).answer w).Silent := by
  intro f hf
  exact (isGeneral_inquire r d w f hf).2

theorem answer_verdict (s : Standard) (online : Bool) (d : Document) (r : Rule) (w : World) :
    (r.verdict s online d).answer w =
      if online then (r.examine s d).andThen ((r.inquire d).answer w) else r.examine s d := by
  cases online with
  | false => rfl
  | true =>
    simp only [verdict, if_true]
    rw [Inquiry.answer_then]
    rfl

/-- Without the other sites a rule reports the same for submission. -/
theorem examine_of_verdict {s : Standard} {online : Bool} {d : Document} {r : Rule} {w : World}
    (h : ((r.verdict s online d).answer w).failure = none) :
    (r.examine s d).failure = none ∧
      (r.examine s d).findings.filterMap (Finding.nit? .submission) =
        ((r.verdict s online d).answer w).findings.filterMap (Finding.nit? .submission) := by
  rw [answer_verdict] at h ⊢
  cases online with
  | false => exact ⟨h, rfl⟩
  | true =>
    simp only [if_true, Verdict.andThen] at h ⊢
    cases he : (r.examine s d).failure with
    | some e =>
      rw [he] at h
      simp [he] at h
    | none =>
      refine ⟨rfl, ?_⟩
      rw [List.filterMap_append, (silent_inquire r d w).filterMap_nit?, List.append_nil]

end Rule

namespace Review

section Merge

variable {m : Mode} {vs : List Verdict} {ns : List Nit}

theorem mapM_nits_eq_ok_iff {found : List (List Nit)} :
    vs.mapM (fun v => v.nits m) = .ok found ↔
      (∀ v ∈ vs, v.failure = none) ∧
        found = vs.map fun v => v.findings.filterMap (Finding.nit? m) := by
  induction vs generalizing found with
  | nil => simp [pure, Except.pure, eq_comm]
  | cons v vs ih =>
    rw [List.mapM_cons]
    cases hv : v.failure with
    | some e => simp [Verdict.nits, hv, bind, Except.bind]
    | none =>
      have hnits : v.nits m = .ok (v.findings.filterMap (Finding.nit? m)) := by
        simp [Verdict.nits, hv]
      simp only [hnits, bind, Except.bind]
      cases hrest : vs.mapM (fun v => v.nits m) with
      | error e =>
        simp only [reduceCtorEq, false_iff, not_and]
        intro h
        have hok := ih.mpr ⟨fun v' hv' => h v' (List.mem_cons_of_mem _ hv'), rfl⟩
        rw [hrest] at hok
        cases hok
      | ok rest =>
        obtain ⟨hall, rfl⟩ := ih.mp hrest
        simp only [pure, Except.pure, Except.ok.injEq, List.map_cons, List.forall_mem_cons, hv, true_and]
        constructor
        · rintro rfl
          exact ⟨hall, rfl⟩
        · rintro ⟨-, rfl⟩
          rfl

theorem merge_eq_ok_iff :
    merge m vs = .ok ns ↔
      (∀ v ∈ vs, v.failure = none) ∧
        ns = Text.distinct ((vs.flatMap Verdict.findings).filterMap (Finding.nit? m)) := by
  have hflatten : (vs.map fun v => v.findings.filterMap (Finding.nit? m)).flatten =
      (vs.flatMap Verdict.findings).filterMap (Finding.nit? m) := by
    rw [List.filterMap_flatMap, List.flatMap_def]
  unfold merge
  cases h : vs.mapM (fun v => v.nits m) with
  | error e =>
    simp only [bind, Except.bind, reduceCtorEq, false_iff, not_and]
    intro hall
    have hok := (mapM_nits_eq_ok_iff (m := m)).mpr ⟨hall, rfl⟩
    rw [h] at hok
    cases hok
  | ok found =>
    obtain ⟨hall, rfl⟩ := mapM_nits_eq_ok_iff.mp h
    simp only [bind, Except.bind, pure, Except.pure, Except.ok.injEq, hflatten]
    exact ⟨fun he => ⟨hall, he.symm⟩, fun he => he.2.symm⟩

theorem isNormal_of_merge (h : merge .normal vs = .ok ns) : ∀ n ∈ ns, n.IsNormal := by
  obtain ⟨-, rfl⟩ := merge_eq_ok_iff.mp h
  intro n hn
  exact Finding.isNormal_of_mem (Text.mem_of_mem_distinct hn)

/-- The nits of the same verdicts in another mode. -/
theorem merge_regrade (h : merge .normal vs = .ok ns) (m : Mode) :
    merge m vs = .ok (ns.filterMap (Nit.regrade? m)) := by
  obtain ⟨hall, rfl⟩ := merge_eq_ok_iff.mp h
  refine merge_eq_ok_iff.mpr ⟨hall, ?_⟩
  rw [Finding.filterMap_nit? m]
  symm
  apply Text.distinct_filterMap
  intro n hn n' hn' found hr hr'
  exact (Finding.isNormal_of_mem hn).injective (Finding.isNormal_of_mem hn') hr hr'

end Merge

/-- The verdicts of all rules in a world. -/
def verdictsIn (w : World) (s : Standard) (online : Bool) (d : Document) : List Verdict :=
  (Rule.forFormat d.format).map fun r => (r.verdict s online d).answer w

variable {w : World} {s : Standard} {d : Document} {online offline : Bool} {ns : List Nit}

theorem run_nitsIn (m : Mode) :
    ((nitsIn m offline s d).run w .empty).1 =
      merge m (verdictsIn w s (asksSites m offline) d) := by
  rw [Inquiry.run_eq_answer (Memory.reflects_empty w), nitsIn, Inquiry.answer_then, verdicts,
    Inquiry.answer_mapM]
  rfl

/-- For submission it makes no difference whether the other sites were asked. -/
theorem merge_submission (h : ∀ v ∈ verdictsIn w s online d, v.failure = none) :
    merge .submission (verdictsIn w s false d) = merge .submission (verdictsIn w s online d) := by
  have hrule : ∀ r ∈ Rule.forFormat d.format,
      (r.examine s d).failure = none ∧
        (r.examine s d).findings.filterMap (Finding.nit? .submission) =
          ((r.verdict s online d).answer w).findings.filterMap (Finding.nit? .submission) := by
    intro r hr
    exact Rule.examine_of_verdict (h _ (List.mem_map_of_mem hr))
  have hfailure : ∀ v ∈ verdictsIn w s false d, v.failure = none := by
    intro v hv
    obtain ⟨r, hr, rfl⟩ := List.mem_map.mp hv
    exact (hrule r hr).1
  have hnits : ((verdictsIn w s false d).flatMap Verdict.findings).filterMap (Finding.nit? .submission) =
      ((verdictsIn w s online d).flatMap Verdict.findings).filterMap (Finding.nit? .submission) := by
    rw [List.filterMap_flatMap, List.filterMap_flatMap, verdictsIn, verdictsIn, List.flatMap_map,
      List.flatMap_map]
    apply List.flatMap_congr
    intro r hr
    exact (hrule r hr).2
  rw [merge_eq_ok_iff.mpr ⟨hfailure, rfl⟩, hnits]
  exact (merge_eq_ok_iff.mpr ⟨h, rfl⟩).symm

theorem run_of {today : Date} {q : Request} {m : Mode} (h : Mode.requested q.mode = .ok m) :
    ((Review.of today q d).run w .empty).1 =
      (merge m (verdictsIn w ⟨today, q.year⟩ (asksSites m q.offline) d)).map fun nits => ⟨m, nits⟩ := by
  rw [← run_nitsIn, Inquiry.run_eq_answer (Memory.reflects_empty w),
    Inquiry.run_eq_answer (Memory.reflects_empty w)]
  simp only [Review.of, h]
  rw [Inquiry.answer_then]
  rfl

/-- The normal mode is the strictest.  The forgiving one reports the same, and submission some of it, never
more gravely. -/
theorem of_le_normal {today : Date} {year : Option Int} {normal forgiving submission : Option Text}
    (hnormal : Mode.requested normal = .ok .normal)
    (hforgiving : Mode.requested forgiving = .ok .forgiving)
    (hsubmission : Mode.requested submission = .ok .submission)
    (h : ((Review.of today ⟨normal, offline, year⟩ d).run w .empty).1 = .ok ⟨.normal, ns⟩) :
    ∃ forgiven submitted,
      ((Review.of today ⟨forgiving, offline, year⟩ d).run w .empty).1 = .ok ⟨.forgiving, forgiven⟩ ∧
      ((Review.of today ⟨submission, offline, year⟩ d).run w .empty).1 = .ok ⟨.submission, submitted⟩ ∧
      List.Forall₂ Nit.Milder forgiven ns ∧ List.SublistForall₂ Nit.Milder submitted ns ∧
      (Nit.anyError ns = false → Nit.anyError forgiven = false ∧ Nit.anyError submitted = false) := by
  rw [run_of hnormal] at h
  cases hmerge : merge .normal (verdictsIn w ⟨today, year⟩ (asksSites .normal offline) d) with
  | error e =>
    rw [hmerge] at h
    cases h
  | ok found =>
    rw [hmerge] at h
    obtain rfl : found = ns := (Review.mk.inj (Except.ok.inj h)).2
    have hall := (merge_eq_ok_iff.mp hmerge).1
    have hns := isNormal_of_merge hmerge
    refine ⟨found.filterMap (Nit.regrade? .forgiving), found.filterMap (Nit.regrade? .submission), ?_, ?_,
      Nit.forall₂_regrade hns, Nit.sublistForall₂_regrade hns, ?_⟩
    · rw [run_of hforgiving]
      exact congrArg (Except.map _) (merge_regrade hmerge .forgiving)
    · rw [run_of hsubmission]
      have hsame := (merge_submission hall).trans (merge_regrade hmerge .submission)
      exact congrArg (Except.map _) hsame
    · intro he
      exact ⟨Nit.anyError_of_sublist (Nit.sublistForall₂_regrade hns) he,
        Nit.anyError_of_sublist (Nit.sublistForall₂_regrade hns) he⟩

/-- A title and nothing else, to which the normal mode objects in six ways. -/
theorem of_le_normal_title :
    ∃ (today : Date) (d : Document) (ns forgiven submitted : List Nit),
      d = .text (.ofText none "Front\n\n\nTitle\n".toList) ∧ ns.length = 6 ∧
      ((Review.of today ⟨none, true, none⟩ d).run (fun _ => none) .empty).1 = .ok ⟨.normal, ns⟩ ∧
      ((Review.of today ⟨some "forgive".toList, true, none⟩ d).run (fun _ => none) .empty).1 =
        .ok ⟨.forgiving, forgiven⟩ ∧
      ((Review.of today ⟨some "submission".toList, true, none⟩ d).run (fun _ => none) .empty).1 =
        .ok ⟨.submission, submitted⟩ ∧
      List.Forall₂ Nit.Milder forgiven ns ∧ List.SublistForall₂ Nit.Milder submitted ns := by
  have hforgiving : Mode.requested (some "forgive".toList) = .ok .forgiving := by decide +kernel
  have hsubmission : Mode.requested (some "submission".toList) = .ok .submission := by decide +kernel
  have hlength : ((Review.of ⟨2024, 3, 4, by decide⟩ ⟨none, true, none⟩
      (.text (.ofText none "Front\n\n\nTitle\n".toList))).run (fun _ => none) .empty).1.map
        (fun r => (r.mode, r.nits.length)) = .ok (.normal, 6) := by
    decide +kernel
  cases hrun : ((Review.of ⟨2024, 3, 4, by decide⟩ ⟨none, true, none⟩
      (.text (.ofText none "Front\n\n\nTitle\n".toList))).run (fun _ => none) .empty).1 with
  | error e =>
    rw [hrun] at hlength
    cases hlength
  | ok r =>
    obtain ⟨mode, ns⟩ := r
    rw [hrun] at hlength
    obtain ⟨rfl, hns⟩ := Prod.mk.inj (Except.ok.inj hlength)
    obtain ⟨forgiven, submitted, hforgiven, hsubmitted, hall, hsome, -⟩ :=
      of_le_normal rfl hforgiving hsubmission hrun
    exact ⟨_, _, ns, forgiven, submitted, rfl, hns, hrun, hforgiven, hsubmitted, hall, hsome⟩

end Review

end DraftLint
