import DraftLint.Proofs.Attempts
import DraftLint.Proofs.Review
import Mathlib.Data.List.Induction

/-!
# Outcomes of reviews

A review comes to the first failure among the verdicts, or else to their nits in order, each where it first
occurs.  The severities of nits are those that are reported, so that every nit finds its group.
-/

namespace DraftLint

theorem Severity.mem_reported {s : Severity} : s ∈ reported ↔ s ≠ silent := by
  cases s <;> decide

namespace Nit

section Groups

/-- The nit goes to the end of the group of its severity, if there is such a group. -/
def put? (n : Nit) : List (Severity × List Nit) → Option (List (Severity × List Nit))
  | [] => none
  | (s, ns) :: groups =>
    if n.severity = s then some ((s, ns ++ [n]) :: groups) else (n.put? groups).map ((s, ns) :: ·)

/-- The nits one after the other are put into groups, one for each severity that is reported. -/
def groups? (ns : List Nit) : Option (List (Severity × List Nit)) :=
  ns.foldlM (fun groups n => n.put? groups) (Severity.reported.map fun s => (s, []))

variable {n : Nit} {ns : List Nit} {ss : List Severity}

theorem ofSeverity_append_of_ne {s : Severity} (h : n.severity ≠ s) :
    ofSeverity s (ns ++ [n]) = ofSeverity s ns := by
  simp [ofSeverity, h]

theorem put?_ofSeverity (hss : ss.Nodup) (h : n.severity ∈ ss) :
    n.put? (ss.map fun s => (s, ofSeverity s ns)) =
      some (ss.map fun s => (s, ofSeverity s (ns ++ [n]))) := by
  induction ss with
  | nil => cases h
  | cons s ss ih =>
    obtain ⟨hs, hss⟩ := List.nodup_cons.mp hss
    rw [List.map_cons, put?, List.map_cons]
    split_ifs with hn
    · have hothers : ∀ t ∈ ss, (t, ofSeverity t ns) = (t, ofSeverity t (ns ++ [n])) := by
        intro t ht
        have hne : n.severity ≠ t := by
          rintro rfl
          exact hs (hn ▸ ht)
        rw [ofSeverity_append_of_ne hne]
      have hgroup : ofSeverity s (ns ++ [n]) = ofSeverity s ns ++ [n] := by
        simp [ofSeverity, hn]
      rw [List.map_congr_left hothers, hgroup]
    · rw [ih hss ((List.mem_cons.mp h).resolve_left hn), ofSeverity_append_of_ne hn]
      rfl

/-- Nits that are reported fall into groups, and each group keeps their order. -/
theorem groups?_eq (h : ∀ n ∈ ns, n.severity ∈ Severity.reported) :
    groups? ns = some (Severity.reported.map fun s => (s, ofSeverity s ns)) := by
  induction ns using List.reverseRecOn with
  | nil => rfl
  | append_singleton ns n ih =>
    have hns := ih fun n' hn' => h n' (List.mem_append_left _ hn')
    have hn := h n (List.mem_append_right _ (List.mem_singleton_self n))
    rw [groups?] at hns
    rw [groups?, List.foldlM_append, hns]
    simp only [Option.bind_eq_bind, Option.bind_some, List.foldlM_cons, List.foldlM_nil]
    rw [put?_ofSeverity (by decide) hn]
    rfl

end Groups

end Nit

/-- A nit keeps the code and the places of its finding. -/
theorem Finding.code_places_of_nit? {m : Mode} {f : Finding} {n : Nit} (h : f.nit? m = some n) :
    n.code = f.issue.code ∧ n.places = f.places := by
  obtain ⟨-, rfl⟩ := Nit.graded?_eq_some_iff.mp h
  exact ⟨rfl, rfl⟩

theorem Finding.severity_mem_reported {m : Mode} {f : Finding} {n : Nit} (h : f.nit? m = some n) :
    n.severity ∈ Severity.reported := by
  obtain ⟨hne, rfl⟩ := Nit.graded?_eq_some_iff.mp h
  exact Severity.mem_reported.mpr hne

namespace Review

variable {m : Mode} {vs : List Verdict} {ns : List Nit} {e : Failure}

theorem severity_mem_reported (h : merge m vs = .ok ns) : ∀ n ∈ ns, n.severity ∈ Severity.reported := by
  obtain ⟨-, rfl⟩ := merge_eq_ok_iff.mp h
  intro n hn
  obtain ⟨f, -, hf⟩ := List.mem_filterMap.mp (Text.mem_of_mem_distinct hn)
  exact Finding.severity_mem_reported hf

theorem merge_eq_error_iff : merge m vs = .error e ↔ Attempts.FailsFirst (Verdict.nits m) e vs := by
  rw [← Attempts.mapM_eq_error_iff, merge]
  cases vs.mapM (Verdict.nits m) with
  | error e' => simp [bind, Except.bind]
  | ok found => simp [bind, Except.bind, pure, Except.pure]

section Run

variable {today : Date} {q : Request} {d : Document} {w : World} {r : Review}

/-- A review that comes to nits has a mode, and merges verdicts without failure in it. -/
theorem merge_of_run (h : ((Review.of today q d).run w .empty).1 = .ok r) :
    Mode.requested q.mode = .ok r.mode ∧
      merge r.mode (verdictsIn w ⟨today, q.year⟩ (asksSites r.mode q.offline) d) = .ok r.nits := by
  cases hm : Mode.requested q.mode with
  | error e =>
    have hfailed : Review.of today q d = .done (.error e) := by
      simp only [Review.of, hm]
      rfl
    rw [hfailed] at h
    cases h
  | ok m =>
    rw [run_of hm] at h
    cases hmerge : merge m (verdictsIn w ⟨today, q.year⟩ (asksSites m q.offline) d) with
    | error e =>
      rw [hmerge] at h
      cases h
    | ok ns =>
      rw [hmerge] at h
      obtain rfl := Except.ok.inj h
      exact ⟨rfl, hmerge⟩

/-- Every nit comes from a finding of a rule. -/
theorem exists_finding_of_run (h : ((Review.of today q d).run w .empty).1 = .ok r) {n : Nit} (hn : n ∈ r.nits) :
    ∃ rule ∈ Rule.forFormat d.format,
      ∃ f ∈ ((Rule.verdict ⟨today, q.year⟩ (asksSites r.mode q.offline) d rule).answer w).findings,
        f.nit? r.mode = some n := by
  obtain ⟨-, hns⟩ := merge_eq_ok_iff.mp (merge_of_run h).2
  rw [hns] at hn
  obtain ⟨f, hf, hnit⟩ := List.mem_filterMap.mp (Text.mem_of_mem_distinct hn)
  obtain ⟨v, hv, hfv⟩ := List.mem_flatMap.mp hf
  obtain ⟨rule, hrule, rfl⟩ := List.mem_map.mp hv
  exact ⟨rule, hrule, f, hfv, hnit⟩

end Run

end Review

end DraftLint
