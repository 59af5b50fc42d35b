import DraftLint.Proofs.Offline
import DraftLint.Proofs.Schedule

/-!
# Reviews without other sites

Offline and for submission nothing is looked up.  The rules that turn to other sites each have a guard of
their own, and that on succession leaves at two places.  With these guards a review comes to the same as with
one guard before all rules, in any mode.  Where they hold, every rule is at its end without a request.
-/

namespace DraftLint

namespace Inquiry

variable {α β γ : Type}

/-- Inquiries whose results are read in the same way can take the place of others. -/
theorem map_mapM_congr {ε : Type} {f f' : α → Inquiry β} {g : β → Except ε γ} {xs : List α}
    (h : ∀ x ∈ xs, g <$> f x = g <$> f' x) :
    (List.mapM g) <$> xs.mapM f = (List.mapM g) <$> xs.mapM f' := by
  induction xs with
  | nil => rfl
  | cons x xs ih =>
    have hx := h x (List.mem_cons_self ..)
    have hxs := ih fun y hy => h y (List.mem_cons_of_mem _ hy)
    have hread : ∀ k : α → Inquiry β, (List.mapM g) <$> (x :: xs).mapM k =
        g <$> k x >>= fun first => (List.mapM g <$> xs.mapM k) >>= fun rest =>
          pure (first >>= fun c => rest >>= fun cs => pure (c :: cs)) := by
      intro k
      simp only [List.mapM_cons, map_eq_pure_bind, bind_assoc, pure_bind]
    rw [hread f, hread f', hx, hxs]

theorem exists_map_eq_done {f : α → Inquiry β} {xs : List α} (h : ∀ x ∈ xs, ∃ b, f x = done b) :
    ∃ bs, xs.map f = bs.map done ∧ xs.mapM f = done bs := by
  induction xs with
  | nil => exact ⟨[], rfl, rfl⟩
  | cons x xs ih =>
    obtain ⟨b, hb⟩ := h x (List.mem_cons_self ..)
    obtain ⟨bs, hmap, hmapM⟩ := ih fun y hy => h y (List.mem_cons_of_mem _ hy)
    refine ⟨b :: bs, ?_, ?_⟩
    · rw [List.map_cons, hb, hmap, List.map_cons]
    · rw [List.mapM_cons, hb, hmapM]
      rfl

end Inquiry

namespace Session

variable {α : Type} {w : World} {σ : Session α} {answers : List α}

/-- Inquiries that are all at their end make no request, so that nothing ever happens. -/
theorem eq_of_reaches_done (h : Reaches w (start (answers.map Inquiry.done)) σ) :
    σ = start (answers.map Inquiry.done) := by
  induction h with
  | refl => rfl
  | tail _ hstep ih =>
    rw [ih] at hstep
    have hdone : ∀ before (i : Inquiry α) after, answers.map Inquiry.done = before ++ i :: after →
        ∃ a, i = .done a := by
      intro before i after htasks
      have hi : i ∈ answers.map Inquiry.done := htasks ▸ List.mem_append_right _ (List.mem_cons_self ..)
      obtain ⟨a, -, rfl⟩ := List.mem_map.mp hi
      exact ⟨a, rfl⟩
    generalize hs : start (answers.map Inquiry.done) = s at hstep
    obtain ⟨hpages, htasks⟩ := Session.mk.inj hs
    cases hstep with
    | request hawaits hnew =>
      obtain ⟨a, rfl⟩ := hdone _ _ _ htasks
      cases hawaits
    | reply => exact absurd hpages.symm (List.append_ne_nil_of_right_ne_nil _ (List.cons_ne_nil _ _))
    | resume hreply =>
      obtain ⟨a, ha⟩ := hdone _ _ _ htasks
      cases ha

end Session

namespace Verdict

theorem andThen_clean (v : Verdict) : v.andThen clean = v := by
  obtain ⟨findings, failure⟩ := v
  cases failure with
  | none => exact congrArg (Verdict.mk · none) (List.append_nil findings)
  | some e => rfl

theorem nits_of_silent {v : Verdict} (h : v.Silent) (hfailure : v.failure = none) :
    v.nits .submission = .ok [] := by
  simp only [nits, hfailure, h.filterMap_nit?]

end Verdict

namespace Rules

open Verdict

/-- A rule that looks nothing up for submission or offline. -/
def unlessWithheld (m : Mode) (offline : Bool) (look : Inquiry Verdict) : Inquiry Verdict :=
  if m = .submission ∨ offline then return .clean else look

/-- The rule on succession stops for submission before it looks at the document at all, and offline after
it has compared attributes and abstract. -/
def succession (m : Mode) (offline : Bool) : Document → Inquiry Verdict
  | .text _ => return .clean
  | .markup d => do
    if m = .submission then return .clean
    let agreed := consistentSuccession (.markup d)
    if offline then return agreed
    let told ← possibleSuccession (.markup d)
    return agreed.andThen told

/-- What a document says about the documents that it changes does not matter for submission. -/
theorem silent_consistentSuccession (d : Document) : (consistentSuccession d).Silent := by
  have hagreement : ∀ (r : Relation) (c : Claims), ∀ f ∈ agreement r c,
      f.issue.gravity.submission = .silent := by
    intro r c f hf
    rcases List.mem_append.mp hf with hf | hf
    · obtain ⟨n, -, rfl⟩ := List.mem_map.mp hf
      rfl
    · obtain ⟨n, -, rfl⟩ := List.mem_map.mp hf
      rfl
  cases d with
  | text d => exact only_clean
  | markup d =>
    intro f hf
    rcases List.mem_append.mp hf with hf | hf
    · exact hagreement _ _ f hf
    · exact hagreement _ _ f hf

end Rules

namespace Rule

/-- The verdict of a rule that guards what it looks up by itself. -/
def guarded (m : Mode) (offline : Bool) (s : Standard) (d : Document) : Rule → Inquiry Verdict
  | downrefs => Rules.unlessWithheld m offline (Rules.downrefs d)
  | normative => Rules.unlessWithheld m offline (Rules.currentRfcs .normative d)
  | informative => Rules.unlessWithheld m offline (Rules.currentRfcs .informative d)
  | unclassified => Rules.unlessWithheld m offline (Rules.currentRfcs .unclassified d)
  | drafts => Rules.unlessWithheld m offline (Rules.unpublishedDrafts d)
  | succession => Rules.succession m offline d
  | r => return r.examine s d

variable {m : Mode} {offline : Bool} {s : Standard} {d : Document}

/-- Where other sites are asked, the guards of the rules let all look-ups pass. -/
theorem guarded_of_asksSites (h : Review.asksSites m offline = true) (r : Rule) :
    r.guarded m offline s d = r.verdict s true d := by
  obtain ⟨hm, rfl⟩ : m ≠ .submission ∧ offline = false := by
    simpa [Review.asksSites] using h
  have hlook : ∀ look : Inquiry Verdict, Rules.unlessWithheld m false look =
      look >>= fun told => pure (Verdict.clean.andThen told) := by
    intro look
    rw [Rules.unlessWithheld, if_neg (by simp [hm])]
    exact (bind_pure look).symm
  cases r with
  | downrefs => exact hlook _
  | normative => exact hlook _
  | informative => exact hlook _
  | unclassified => exact hlook _
  | drafts => exact hlook _
  | succession =>
    cases d with
    | text d => rfl
    | markup d =>
      simp only [guarded, Rules.succession, if_neg hm, verdict, if_true]
      rfl
  | _ => exact congrArg pure (Verdict.andThen_clean _).symm

/-- Where they are not, every rule is at its end at once, with what it says about the document by itself.
For submission the rule on succession leaves out what would not be reported. -/
theorem guarded_of_not_asksSites (h : Review.asksSites m offline = false) (r : Rule) :
    ∃ v, r.guarded m offline s d = .done v ∧ v.nits m = (r.examine s d).nits m := by
  have hwithheld : m = .submission ∨ offline = true := by
    cases m <;> cases offline <;> simp_all [Review.asksSites]
  have hlook : ∀ look, Rules.unlessWithheld m offline look = .done .clean := by
    intro look
    exact if_pos hwithheld
  cases r with
  | downrefs => exact ⟨_, hlook _, rfl⟩
  | normative => exact ⟨_, hlook _, rfl⟩
  | informative => exact ⟨_, hlook _, rfl⟩
  | unclassified => exact ⟨_, hlook _, rfl⟩
  | drafts => exact ⟨_, hlook _, rfl⟩
  | succession =>
    cases d with
    | text d => exact ⟨_, rfl, rfl⟩
    | markup d =>
      by_cases hm : m = .submission
      · subst hm
        refine ⟨_, rfl, ?_⟩
        exact (Verdict.nits_of_silent (Rules.silent_consistentSuccession (.markup d)) rfl).symm
      · obtain rfl := hwithheld.resolve_left hm
        refine ⟨Rules.consistentSuccession (.markup d), ?_, rfl⟩
        simp only [guarded, Rules.succession, if_neg hm, if_true]
        rfl
  | _ => exact ⟨_, rfl, rfl⟩

/-- The guards of the rules come to the same as one guard before all of them. -/
theorem map_nits_guarded (m : Mode) (offline : Bool) (s : Standard) (d : Document) (r : Rule) :
    Verdict.nits m <$> r.guarded m offline s d =
      Verdict.nits m <$> r.verdict s (Review.asksSites m offline) d := by
  cases h : Review.asksSites m offline with
  | true => rw [guarded_of_asksSites h r]
  | false =>
    obtain ⟨v, hv, hnits⟩ := guarded_of_not_asksSites (s := s) (d := d) h r
    rw [hv]
    exact congrArg Inquiry.done hnits

end Rule

namespace Review

/-- The review of a document by rules that guard their own look-ups. -/
def ofGuarded (today : Date) (q : Request) (d : Document) : Inquiry (Except Failure Review) := do
  match Mode.requested q.mode with
  | .error e => return .error e
  | .ok m =>
    let vs ← (Rule.forFormat d.format).mapM (Rule.guarded m q.offline ⟨today, q.year⟩ d)
    return (merge m vs).map fun nits => ⟨m, nits⟩

variable {today : Date} {q : Request} {m : Mode} {d : Document} {w : World}

theorem ofGuarded_eq_of (today : Date) (q : Request) (d : Document) :
    ofGuarded today q d = Review.of today q d := by
  unfold ofGuarded Review.of
  cases Mode.requested q.mode with
  | error e => rfl
  | ok m =>
    have hnits : List.mapM (Verdict.nits m) <$>
          (Rule.forFormat d.format).mapM (Rule.guarded m q.offline ⟨today, q.year⟩ d) =
        List.mapM (Verdict.nits m) <$>
          (Rule.forFormat d.format).mapM fun r => r.verdict ⟨today, q.year⟩ (asksSites m q.offline) d := by
      apply Inquiry.map_mapM_congr
      intro r _
      exact Rule.map_nits_guarded m q.offline ⟨today, q.year⟩ d r
    have hmerge : ∀ i : Inquiry (List Verdict),
        (i >>= fun vs => pure ((merge m vs).map fun nits => (⟨m, nits⟩ : Review))) =
          (List.mapM (Verdict.nits m) <$> i) >>= fun found =>
            pure ((found >>= fun ns => pure (Text.distinct ns.flatten)).map fun nits => ⟨m, nits⟩) := by
      intro i
      simp only [map_eq_pure_bind, bind_assoc, pure_bind]
      rfl
    simp only [nitsIn, bind_assoc, pure_bind, verdicts]
    rw [hmerge, hnits, ← hmerge]

theorem asksSites_eq_false (h : q.offline = true ∨ Mode.requested q.mode = .ok .submission)
    (hm : Mode.requested q.mode = .ok m) : asksSites m q.offline = false := by
  rcases h with hq | hsubmission
  · rw [hq]
    exact asksSites_offline m
  · obtain rfl := Except.ok.inj (hm.symm.trans hsubmission)
    rfl

/-- A review that is not to ask other sites has come to its result from the start. -/
theorem exists_of_eq_done (today : Date) (d : Document)
    (h : q.offline = true ∨ Mode.requested q.mode = .ok .submission) :
    ∃ result, Review.of today q d = .done result := by
  cases hm : Mode.requested q.mode with
  | error e => exact ⟨.error e, by simp only [Review.of, hm]; rfl⟩
  | ok m => exact ⟨_, of_not_asksSites hm (asksSites_eq_false h hm)⟩

/-- Offline, whatever the mode, and for submission a review makes no request.  In all worlds, and whatever
is remembered of other reviews, it comes to the same; so do the rules with the guards of their own, one
after the other or at once. -/
theorem of_unconnected (today : Date) (q : Request) (d : Document)
    (h : q.offline = true ∨ Mode.requested q.mode = .ok .submission) :
    (∀ w w' memory memory', ((Review.of today q d).run w memory).1 =
      ((Review.of today q d).run w' memory').1) ∧
    (∀ w memory, (Review.of today q d).needed w = [] ∧ ((Review.of today q d).run w memory).2 = memory) ∧
    ofGuarded today q d = Review.of today q d ∧
    ∀ m, Mode.requested q.mode = .ok m →
      ∃ vs, (Rule.forFormat d.format).map (Rule.guarded m q.offline ⟨today, q.year⟩ d) =
          vs.map Inquiry.done ∧
        Review.of today q d = .done ((merge m vs).map fun nits => ⟨m, nits⟩) ∧
        ∀ w σ, Session.Reaches w
            (.start ((Rule.forFormat d.format).map (Rule.guarded m q.offline ⟨today, q.year⟩ d))) σ →
          σ.requested = [] ∧ σ.Ends vs := by
  obtain ⟨result, hresult⟩ := exists_of_eq_done today d h
  refine ⟨?_, ?_, ofGuarded_eq_of today q d, ?_⟩
  · intro w w' memory memory'
    rw [hresult]
    rfl
  · intro w memory
    rw [hresult]
    exact ⟨rfl, rfl⟩
  · intro m hm
    have hrules : ∀ r ∈ Rule.forFormat d.format, ∃ v, Rule.guarded m q.offline ⟨today, q.year⟩ d r = .done v := by
      intro r _
      obtain ⟨v, hv, -⟩ := Rule.guarded_of_not_asksSites (asksSites_eq_false h hm) r
      exact ⟨v, hv⟩
    obtain ⟨vs, hvs, hrun⟩ := Inquiry.exists_map_eq_done hrules
    refine ⟨vs, hvs, ?_, ?_⟩
    · rw [← ofGuarded_eq_of]
      simp only [ofGuarded, hm]
      rw [hrun]
      rfl
    · intro w σ hσ
      rw [hvs] at hσ
      rw [Session.eq_of_reaches_done hσ]
      exact ⟨rfl, rfl⟩

/-- What is known of the one document that is referenced changes a normal review, and no other. -/
theorem of_unconnected_reference :
    ∃ (today : Date) (d : Document) (w w' : World),
      d = .text (.ofText none
        "Front\n\n\nTitle\n\n1. Normative References\n\n   [RFC1234] Example\n".toList) ∧
      ((Review.of today ⟨none, false, none⟩ d).run w .empty).1 ≠
        ((Review.of today ⟨none, false, none⟩ d).run w' .empty).1 ∧
      ((Review.of today ⟨none, true, none⟩ d).run w .empty).1 =
        ((Review.of today ⟨none, true, none⟩ d).run w' .empty).1 ∧
      ((Review.of today ⟨some "submission".toList, false, none⟩ d).run w .empty).1 =
        ((Review.of today ⟨some "submission".toList, false, none⟩ d).run w' .empty).1 ∧
      ((Review.of today ⟨some "submission".toList, false, none⟩ d).run w .empty).2 = .empty := by
  let today : Date := ⟨2024, 3, 4, by decide⟩
  let d : Document := .text (.ofText none
    "Front\n\n\nTitle\n\n1. Normative References\n\n   [RFC1234] Example\n".toList)
  let lost : World := fun page =>
    if page = "https://www.rfc-editor.org/rfc/rfc1234.json" then
      some "\x7b\"status\": \"Lost\"\x7d".toList
    else none
  obtain ⟨hoffline, -⟩ := of_unconnected today ⟨none, true, none⟩ d (.inl rfl)
  obtain ⟨hsubmission, hsilent, -⟩ :=
    of_unconnected today ⟨some "submission".toList, false, none⟩ d (.inr (by decide +kernel))
  refine ⟨today, d, lost, fun _ => none, rfl, ?_, hoffline _ _ _ _, hsubmission _ _ _ _, (hsilent _ _).2⟩
  intro h
  have hcodes := congrArg (Except.map fun r => r.nits.map Nit.code) h
  revert hcodes
  decide +kernel

end Review
end DraftLint
