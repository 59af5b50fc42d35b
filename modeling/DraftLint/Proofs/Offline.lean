import DraftLint.Proofs.Outcome
import DraftLint.Proofs.Rules.Dates

/-!
# Reviews offline

Without other sites a review comes to nits unless the rule on dates fails, which is the only one that can.
It never does on plain text.  On markup it does exactly if the date has a year or a day that needs more than
32 bits.
-/

namespace DraftLint

theorem Mode.requested_name (m : Mode) : requested (some m.name.toList) = .ok m := by
  cases m <;> decide

namespace Rule

/-- No rule but that on dates fails on what a document says by itself. -/
theorem failure_examine {r : Rule} (h : r ≠ .date) (s : Standard) (d : Document) :
    (r.examine s d).failure = none := by
  cases d with
  | text d => cases r <;> first | rfl | exact absurd rfl h
  | markup d => cases r <;> first | rfl | exact absurd rfl h

end Rule

namespace Review

variable {today : Date} {q : Request} {m : Mode} {d : Document} {w : World}

/-- Nothing is asked for. -/
theorem of_not_asksSites (h : Mode.requested q.mode = .ok m) (hasks : asksSites m q.offline = false) :
    Review.of today q d = .done
      ((merge m ((Rule.forFormat d.format).map (Rule.examine ⟨today, q.year⟩ d))).map
        fun nits => ⟨m, nits⟩) := by
  have hverdicts : verdicts ⟨today, q.year⟩ false d =
      .done ((Rule.forFormat d.format).map (Rule.examine ⟨today, q.year⟩ d)) :=
    List.mapM_pure
  simp only [Review.of, h, nitsIn, hasks, hverdicts]
  rfl

theorem asksSites_offline (m : Mode) : asksSites m true = false := by
  rw [asksSites, Bool.not_true, Bool.and_false]

theorem of_offline (h : Mode.requested q.mode = .ok m) (hq : q.offline = true) :
    Review.of today q d = .done
      ((merge m ((Rule.forFormat d.format).map (Rule.examine ⟨today, q.year⟩ d))).map
        fun nits => ⟨m, nits⟩) :=
  of_not_asksSites h (hq ▸ asksSites_offline m)

section Outcome

variable {s : Standard}

theorem merge_examine_of_failure_none (h : (Rule.examine s d .date).failure = none) :
    ∃ ns, merge m ((Rule.forFormat d.format).map (Rule.examine s d)) = .ok ns := by
  refine ⟨_, merge_eq_ok_iff.mpr ⟨?_, rfl⟩⟩
  intro v hv
  obtain ⟨r, -, rfl⟩ := List.mem_map.mp hv
  by_cases hr : r = .date
  · rw [hr]
    exact h
  · exact Rule.failure_examine hr s d

theorem merge_examine_of_failure {e : Failure} (h : (Rule.examine s d .date).failure = some e) :
    merge m ((Rule.forFormat d.format).map (Rule.examine s d)) = .error e := by
  have hdate : Rule.examine s d .date ∈ (Rule.forFormat d.format).map (Rule.examine s d) := by
    apply List.mem_map_of_mem
    cases d.format <;> decide
  cases hmerge : merge m ((Rule.forFormat d.format).map (Rule.examine s d)) with
  | ok ns =>
    have hnone := (merge_eq_ok_iff.mp hmerge).1 _ hdate
    rw [h] at hnone
    cases hnone
  | error e' =>
    obtain ⟨before, v, after, hvs, -, hv⟩ := merge_eq_error_iff.mp hmerge
    have hmem : v ∈ (Rule.forFormat d.format).map (Rule.examine s d) := by
      rw [hvs]
      exact List.mem_append_right _ (List.mem_cons_self ..)
    obtain ⟨r, -, rfl⟩ := List.mem_map.mp hmem
    by_cases hr : r = .date
    · rw [hr, Verdict.nits, h] at hv
      rw [Except.error.inj hv]
    · rw [Verdict.nits, Rule.failure_examine hr s d] at hv
      cases hv

end Outcome

/-- The review comes to nits if the rule on dates does not fail. -/
theorem run_offline_of_failure_none (h : Mode.requested q.mode = .ok m) (hq : q.offline = true)
    (hdate : (Rule.examine ⟨today, q.year⟩ d .date).failure = none) :
    ∃ nits, (Review.of today q d).run w .empty = (.ok ⟨m, nits⟩, .empty) ∧
      (∀ n ∈ nits, n.severity ∈ Severity.reported) ∧ (Nit.groups? nits).isSome := by
  obtain ⟨nits, hnits⟩ := merge_examine_of_failure_none hdate
  have hreported := severity_mem_reported hnits
  refine ⟨nits, ?_, hreported, ?_⟩
  · rw [of_offline h hq, hnits]
    rfl
  · rw [Nit.groups?_eq hreported]
    rfl

theorem run_offline_of_failure {e : Failure} (h : Mode.requested q.mode = .ok m) (hq : q.offline = true)
    (hdate : (Rule.examine ⟨today, q.year⟩ d .date).failure = some e) :
    (Review.of today q d).run w .empty = (.error e, .empty) := by
  rw [of_offline h hq, merge_examine_of_failure hdate]
  rfl

/-- Plain text offline.  Each step that might fail is shown to succeed: an open part has content to add to,
dates and copyright years are read as they stand, and the date of the document can be completed on any day.
The review comes to nits, and all of them are reported. -/
theorem offline_text (today : Date) (m : Mode) (year : Option Int) (fileName : Option Text) (t : Text)
    (w : World) :
    (∀ bs, Plain.decode bs = .ok t →
      Plain.Document.ofOctets fileName bs = .ok (.ofText fileName t)) ∧
    (∀ k p, (Plain.Scan.initial.afterLines k (Plain.Document.ofText fileName t).lines).part = some p →
      ((Plain.Scan.initial.afterLines k (Plain.Document.ofText fileName t).lines).content.get p).isSome) ∧
    (∀ u, Calendar.WrittenDate.attempt u = .ok (Calendar.WrittenDate.read? u)) ∧
    (∀ u, Plain.Items.attemptCopyrightYear u = .ok (Plain.Items.copyrightYear? u)) ∧
    (∀ written, (Plain.Document.ofText fileName t).scan.page.header.date = some written →
      ∃ month date, Calendar.monthNumber written.month = .ok (some month) ∧
        Date.complete today (some written.year) (some (month : Int)) written.day = .ok (some date)) ∧
    ∃ nits,
      (Review.of today ⟨some m.name.toList, true, year⟩ (.text (.ofText fileName t))).run w .empty =
        (.ok ⟨m, nits⟩, .empty) ∧
      (∀ n ∈ nits, n.severity ∈ Severity.reported) ∧ (Nit.groups? nits).isSome := by
  refine ⟨?_, ?_, Calendar.WrittenDate.attempt_eq, Plain.Items.attemptCopyrightYear_eq, ?_, ?_⟩
  · intro bs hbs
    rw [Plain.Document.ofOctets, hbs]
    rfl
  · intro k p hp
    have hreached := Plain.Scan.Reached.start.afterLines (Text.lines (Plain.Document.prepare t)) k
    exact hreached.consistent.isSome_content hp
  · intro written hw
    exact Plain.Document.exists_complete_ofText hw today
  · apply run_offline_of_failure_none (Mode.requested_name m) rfl
    exact Rules.failure_date_text fun written hw => Plain.Document.exists_complete_ofText hw today

/-- A review without other sites comes to nits, whatever the mode, the year asked for and the day. -/
def ReturnsOffline (d : Markup.Document) : Prop :=
  ∀ (today : Date) (m : Mode) (year : Option Int) (w : World), ∃ nits,
    (Review.of today ⟨some m.name.toList, true, year⟩ (.markup d)).run w .empty = (.ok ⟨m, nits⟩, .empty)

open Rules Finding Issue in
/-- Markup offline.  The review comes to nits exactly if the date of the document does not overflow.  The
rule on dates then tells how far the day is, if the attributes name one, and else that there is no date. -/
theorem offline_markup (d : Markup.Document) :
    (ReturnsOffline d ↔ ∀ e, dateElement? d.root = some e → ¬Overflows e) ∧
    (∀ e, dateElement? d.root = some e → Overflows e →
      ∀ (today : Date) (m : Mode) (year : Option Int) (w : World),
        (Review.of today ⟨some m.name.toList, true, year⟩ (.markup d)).run w .empty =
          (.error .partTooLarge, .empty)) ∧
    (∀ s, dateElement? d.root = none → Rules.date s (.markup d) = .of [anywhere missingDate]) ∧
    ∀ s e, dateElement? d.root = some e → ¬Overflows e →
      (∀ x, Names s.today e x →
        Rules.date s (.markup d) = .of (nearToday s.today x (onLines · [e.line]))) ∧
      ((∀ x, ¬Names s.today e x) →
        Rules.date s (.markup d) = .of [onLines missingDate [e.line]]) := by
  have hfails : ∀ e, dateElement? d.root = some e → Overflows e →
      ∀ (today : Date) (m : Mode) (year : Option Int) (w : World),
        (Review.of today ⟨some m.name.toList, true, year⟩ (.markup d)).run w .empty =
          (.error .partTooLarge, .empty) := by
    intro e he hover today m year w
    apply run_offline_of_failure (Mode.requested_name m) rfl
    exact failure_date_markup.mpr ⟨rfl, e, he, hover⟩
  refine ⟨⟨?_, ?_⟩, hfails, ?_, ?_⟩
  · intro h e he hover
    obtain ⟨nits, hnits⟩ := h ⟨1, 1, 1, by decide⟩ .normal none fun _ => none
    rw [hfails e he hover] at hnits
    cases hnits
  · intro h today m year w
    have hnone : (Rule.examine ⟨today, year⟩ (.markup d) .date).failure = none := by
      rw [Option.eq_none_iff_forall_ne_some]
      intro f hf
      obtain ⟨-, e, he, hover⟩ := failure_date_markup.mp hf
      exact h e he hover
    obtain ⟨nits, hnits, -⟩ := run_offline_of_failure_none (q := ⟨some m.name.toList, true, year⟩)
      (w := w) (Mode.requested_name m) rfl hnone
    exact ⟨nits, hnits⟩
  · intro s hnone
    simp only [Rules.date, hnone]
  · intro s e he hover
    exact date_of_element he hover

/-- A year of eleven digits. -/
theorem not_returnsOffline :
    ∃ d, Markup.Document.ofOctets none
        (Utf8.encode "<rfc><front><date year=\"99999999999\"/></front></rfc>".toList) = .ok d ∧
      ¬ReturnsOffline d := by
  have hfails : (match Markup.Document.ofOctets none
      (Utf8.encode "<rfc><front><date year=\"99999999999\"/></front></rfc>".toList) with
      | .error _ => false
      | .ok d => !((Review.of ⟨2024, 3, 4, by decide⟩ ⟨some "normal".toList, true, none⟩
          (.markup d)).run (fun _ => none) .empty).1.isOk) = true := by
    decide +kernel
  split at hfails
  · cases hfails
  · rename_i d hd
    refine ⟨d, hd, ?_⟩
    intro h
    obtain ⟨nits, hnits⟩ := h ⟨2024, 3, 4, by decide⟩ .normal none fun _ => none
    rw [Bool.not_eq_true', Bool.eq_false_iff] at hfails
    apply hfails
    exact congrArg (fun r => r.1.isOk) hnits

end Review

end DraftLint
