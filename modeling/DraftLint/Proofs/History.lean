import DraftLint.Proofs.Lookup
import DraftLint.Proofs.Text.Distinct
import DraftLint.Proofs.Text.Writing

/-!
# Histories of look-ups

Calls that share one memory while the world changes between them.  Every page keeps the reply that it had
when it was first requested, and each call comes to what it would come to in a world of these replies.
-/

namespace DraftLint

namespace Memory

/-- The world as it seems to someone who trusts the memory before the world itself. -/
def overlay (m : Memory) (w : World) : World :=
  fun page => (m.reply? page).getD (w page)

theorem overlay_empty (w : World) : empty.overlay w = w :=
  rfl

theorem overlay_of_reply? {m : Memory} {w : World} {page : String} {r : Reply} (h : m.reply? page = some r) :
    m.overlay w page = r := by
  rw [overlay, h, Option.getD_some]

theorem overlay_of_none {m : Memory} {w : World} {page : String} (h : m.reply? page = none) :
    m.overlay w page = w page := by
  rw [overlay, h, Option.getD_none]

theorem exists_reply?_of_mem {m : Memory} {page : String} (h : page ∈ m.requested) :
    ∃ r, m.reply? page = some r := by
  rw [← Option.ne_none_iff_exists', ne_eq, reply?_eq_none_iff]
  exact not_not_intro h

theorem reply?_note (m : Memory) (page other : String) (r : Reply) :
    (m.note page r).reply? other = (m.reply? other).or (if other = page then some r else none) := by
  rw [reply?, note, List.find?_append, Option.map_or, reply?, List.find?_singleton]
  by_cases h : other = page
  · simp [h]
  · simp [h, Ne.symm h]

/-- The reply of a page is remembered unless there is one in the memory already. -/
def learn (m : Memory) (page : String) (r : Reply) : Memory :=
  if page ∈ m.requested then m else m.note page r

/-- What was just learnt passes for what the world says. -/
theorem overlay_learn (m : Memory) (page : String) (r : Reply) (w : World) :
    (m.learn page r).overlay w = m.overlay fun p => if p = page then r else w p := by
  funext p
  unfold learn
  split_ifs with hmem
  · by_cases hp : p = page
    · obtain ⟨r', hr'⟩ := exists_reply?_of_mem hmem
      rw [hp, overlay_of_reply? hr', overlay_of_reply? hr']
    · simp only [overlay, if_neg hp]
  · simp only [overlay, reply?_note]
    split_ifs <;> cases m.reply? p <;> rfl

theorem requested_learn (m : Memory) (page : String) (r : Reply) :
    (m.learn page r).requested = Text.distinct.go m.requested [page] := by
  simp only [learn, Text.distinct.go, List.contains_iff_mem]
  split_ifs
  · rfl
  · exact requested_note m page r

end Memory

namespace Lookup

/-- What a page is about. -/
inductive Subject where
  | rfc (n : Int)
  | draft (name : Text)
  | registry
deriving DecidableEq

/-- The one page about a subject. -/
def Subject.page : Subject → String
  | rfc n => rfcPage n
  | draft name => Site.draftData name
  | registry => Site.downrefRegistry

/-- What can be looked up. -/
inductive Call where
  | rfc (number : Text)
  | draft (name : Text)
  | registry
  | downrefs (labels : List Text)

/-- What comes of a call. -/
inductive Outcome where
  | rfc (found : Except Failure (Option Rfc))
  | draft (found : Option Draft)
  | registry (labels : Except Failure (Option (List Text)))
  | downrefs (found : Except Failure (List Text))

namespace Call

/-- The look-up that a call makes. -/
def inquiry : Call → Inquiry Outcome
  | rfc number => return .rfc (← Lookup.rfc number)
  | draft name => return .draft (← Lookup.drafts [name]).head?.join
  | registry => return .registry (← Lookup.registry)
  | downrefs labels => return .downrefs (← Lookup.downrefs labels)

/-- What the call has to know about, unless it asks for an RFC by something that is no number. -/
def subject? : Call → Option Subject
  | rfc number => (Text.integer? number).map .rfc
  | draft name => some (.draft name)
  | registry => some .registry
  | downrefs _ => some .registry

end Call

/-- What happens in the course of time. -/
inductive Event where
  | call (c : Call)
  /-- From now on the sites reply like this. -/
  | change (w : World)

def Event.call? : Event → Option Call
  | call c => some c
  | change _ => none

/-- The calls among some events. -/
def calls (events : List Event) : List Call :=
  events.filterMap Event.call?

/-- The outcomes of the calls and the memory after them, from a world and a memory on.  Without connection
the calls are made as if no page could be had, and nothing is remembered. -/
def perform (connected : Bool) : World → Memory → List Event → List Outcome × Memory
  | _, m, [] => ([], m)
  | _, m, .change w :: events => perform connected w m events
  | w, m, .call c :: events =>
    let now := if connected then c.inquiry.run w m else (c.inquiry.unanswered, m)
    let later := perform connected w now.2 events
    (now.1 :: later.1, later.2)

/-- The world in which every page replies what it did when a call first needed it. -/
def firstReplies (w : World) : List Event → World
  | [] => w
  | .change w' :: events => firstReplies w' events
  | .call c :: events => fun page =>
    if c.subject?.map Subject.page = some page then w page else firstReplies w events page

section Pages

theorem toList_rfcPage (n : Int) :
    (rfcPage n).toList = "https://www.rfc-editor.org/rfc/rfc".toList ++ (Text.ofInt n ++ ".json".toList) := by
  have hlead : "https://www.rfc-editor.org/rfc/rfc".toList =
      "https://www.rfc-editor.org".toList ++ "/rfc/rfc".toList := by
    decide
  simp only [rfcPage, Site.rfcData, Site.rfcEditor, Text.str, String.toList_append, String.toList_ofList, hlead,
    List.append_assoc]

theorem toList_draftData (name : Text) :
    (Site.draftData name).toList = "https://datatracker.ietf.org/doc/".toList ++ (name ++ "/doc.json".toList) := by
  have hlead : "https://datatracker.ietf.org/doc/".toList = "https://datatracker.ietf.org".toList ++ "/doc/".toList := by
    decide
  simp only [Site.draftData, Site.datatracker, Text.str, String.toList_append, String.toList_ofList, hlead,
    List.append_assoc]

theorem toList_downrefRegistry :
    Site.downrefRegistry.toList = "https://datatracker.ietf.org/doc/".toList ++ "downref/".toList := by
  decide

/-- The editor's pages and the tracker's differ in the first letter of the host. -/
theorem editor_ne_tracker (t u : Text) :
    "https://www.rfc-editor.org/rfc/rfc".toList ++ t ≠ "https://datatracker.ietf.org/doc/".toList ++ u := by
  intro h
  have hletter := congrArg (·[8]?) h
  revert hletter
  simp

theorem rfcPage_ne_draftData (n : Int) (name : Text) : rfcPage n ≠ Site.draftData name := by
  intro h
  have hlist := congrArg String.toList h
  rw [toList_rfcPage, toList_draftData] at hlist
  exact editor_ne_tracker _ _ hlist

theorem rfcPage_ne_downrefRegistry (n : Int) : rfcPage n ≠ Site.downrefRegistry := by
  intro h
  have hlist := congrArg String.toList h
  rw [toList_rfcPage, toList_downrefRegistry] at hlist
  exact editor_ne_tracker _ _ hlist

/-- The page about a draft ends in another letter than that of the registry. -/
theorem draftData_ne_downrefRegistry (name : Text) : Site.draftData name ≠ Site.downrefRegistry := by
  intro h
  have hlist := congrArg String.toList h
  rw [toList_draftData, toList_downrefRegistry] at hlist
  have hlast := congrArg List.getLast? (List.append_cancel_left hlist)
  rw [List.getLast?_append] at hlast
  exact absurd (Option.some.inj hlast) (by decide)

/-- No two subjects share a page. -/
theorem page_injective : Function.Injective Subject.page := by
  intro s s' h
  cases s with
  | rfc m =>
    cases s' with
    | rfc n =>
      have hlist := congrArg String.toList h
      simp only [Subject.page, toList_rfcPage] at hlist
      have hnumber := List.append_cancel_right (List.append_cancel_left hlist)
      exact congrArg Subject.rfc (Text.ofInt_injective hnumber)
    | draft name => exact absurd h (rfcPage_ne_draftData m name)
    | registry => exact absurd h (rfcPage_ne_downrefRegistry m)
  | draft name =>
    cases s' with
    | rfc n => exact absurd h.symm (rfcPage_ne_draftData n name)
    | draft name' =>
      have hlist := congrArg String.toList h
      simp only [Subject.page, toList_draftData] at hlist
      exact congrArg Subject.draft (List.append_cancel_right (List.append_cancel_left hlist))
    | registry => exact absurd h (draftData_ne_downrefRegistry name)
  | registry =>
    cases s' with
    | rfc n => exact absurd h.symm (rfcPage_ne_downrefRegistry n)
    | draft name => exact absurd h.symm (draftData_ne_downrefRegistry name)
    | registry => rfl

end Pages

section Calls

variable {c : Call} {s : Subject} {w : World} {m : Memory}

/-- What a call makes of the reply of the page that it needs. -/
def Call.outcome (c : Call) (r : Reply) : Outcome :=
  c.inquiry.answer fun _ => r

/-- A call with a subject asks for the one page about it. -/
theorem inquiry_of_subject? (h : c.subject? = some s) :
    c.inquiry = .ask s.page fun r => .done (c.outcome r) := by
  cases c with
  | rfc number =>
    obtain ⟨n, hn, rfl⟩ := Option.map_eq_some_iff.mp h
    simp only [Call.outcome, Call.inquiry, Lookup.rfc, Lookup.rfcs, hn, List.map_cons, List.map_nil]
    rfl
  | draft name =>
    obtain rfl := Option.some.inj h
    rfl
  | registry =>
    obtain rfl := Option.some.inj h
    refine congrArg (Inquiry.ask _) (funext fun r => ?_)
    cases r <;> rfl
  | downrefs labels =>
    obtain rfl := Option.some.inj h
    refine congrArg (Inquiry.ask _) (funext fun r => ?_)
    cases r with
    | none => rfl
    | some page =>
      simp only [Call.outcome, Call.inquiry, Inquiry.answer_then, answer_downrefs, answer_registry,
        Inquiry.bind_done]
      cases Registry.labels page with
      | error e => rfl
      | ok known => cases known <;> rfl

/-- A call without a subject has its outcome at once. -/
theorem inquiry_of_subject?_eq_none (h : c.subject? = none) (r : Reply) :
    c.inquiry = .done (c.outcome r) := by
  cases c with
  | rfc number =>
    have hn : Text.integer? number = none := Option.map_eq_none_iff.mp h
    simp only [Call.outcome, Call.inquiry, Lookup.rfc, Lookup.rfcs, hn, List.map_cons, List.map_nil]
    rfl
  | draft name => cases h
  | registry => cases h
  | downrefs labels => cases h

theorem answer_of_subject? (h : c.subject? = some s) : c.inquiry.answer w = c.outcome (w s.page) := by
  rw [inquiry_of_subject? h]
  rfl

theorem answer_of_subject?_eq_none (h : c.subject? = none) : c.inquiry.answer w = c.outcome none := by
  rw [inquiry_of_subject?_eq_none h none]
  rfl

/-- Only the page about its subject matters to a call. -/
theorem answer_congr {w' : World} (h : ∀ s, c.subject? = some s → w s.page = w' s.page) :
    c.inquiry.answer w = c.inquiry.answer w' := by
  cases hs : c.subject? with
  | none => rw [answer_of_subject?_eq_none hs, answer_of_subject?_eq_none hs]
  | some s => rw [answer_of_subject? hs, answer_of_subject? hs, h s hs]

theorem needed_eq (c : Call) (w : World) : c.inquiry.needed w = (c.subject?.map Subject.page).toList := by
  cases hs : c.subject? with
  | none =>
    rw [inquiry_of_subject?_eq_none hs none]
    rfl
  | some s =>
    rw [inquiry_of_subject? hs]
    rfl

/-- A call trusts the memory before the world. -/
theorem run_fst (c : Call) (w : World) (m : Memory) : (c.inquiry.run w m).1 = c.inquiry.answer (m.overlay w) := by
  cases hs : c.subject? with
  | none =>
    rw [inquiry_of_subject?_eq_none hs none]
    rfl
  | some s =>
    rw [inquiry_of_subject? hs, Inquiry.run]
    cases hr : m.reply? s.page with
    | none => exact congrArg c.outcome (Memory.overlay_of_none hr).symm
    | some r => exact congrArg c.outcome (Memory.overlay_of_reply? hr).symm

/-- After a call the page about its subject is remembered. -/
theorem run_snd_of_subject? (h : c.subject? = some s) :
    (c.inquiry.run w m).2 = m.learn s.page (w s.page) := by
  rw [inquiry_of_subject? h, Inquiry.run, Memory.learn]
  split_ifs with hmem
  · obtain ⟨r, hr⟩ := Memory.exists_reply?_of_mem hmem
    rw [hr]
    rfl
  · rw [Memory.reply?_eq_none_iff.mpr hmem]
    rfl

theorem run_snd_of_subject?_eq_none (h : c.subject? = none) : (c.inquiry.run w m).2 = m := by
  rw [inquiry_of_subject?_eq_none h none]
  rfl

end Calls

section Histories

variable {w : World} {m : Memory} {events : List Event}

/-- What is remembered after a call, and what is replied first later on, make up what is replied first from
the call on. -/
theorem overlay_run_snd (c : Call) (w : World) (m : Memory) (events : List Event) :
    (c.inquiry.run w m).2.overlay (firstReplies w events) = m.overlay (firstReplies w (.call c :: events)) := by
  cases hs : c.subject? with
  | none => simp only [run_snd_of_subject?_eq_none hs, firstReplies, hs, Option.map_none, reduceCtorEq, if_false]
  | some s =>
    rw [run_snd_of_subject? hs, Memory.overlay_learn]
    congr 1
    funext page
    simp only [firstReplies, hs, Option.map_some, Option.some.injEq, eq_comm (a := s.page)]
    split_ifs with hpage
    · rw [hpage]
    · rfl

theorem perform_fst (w : World) (m : Memory) (events : List Event) :
    (perform true w m events).1 =
      (calls events).map fun c => c.inquiry.answer (m.overlay (firstReplies w events)) := by
  induction events generalizing w m with
  | nil => rfl
  | cons event events ih =>
    cases event with
    | change w' => exact ih w' m
    | call c =>
      have hnow : c.inquiry.answer (m.overlay w) = c.inquiry.answer (m.overlay (firstReplies w (.call c :: events))) := by
        apply answer_congr
        intro s hs
        simp [Memory.overlay, firstReplies, hs]
      have hlater := ih w (c.inquiry.run w m).2
      rw [overlay_run_snd] at hlater
      rw [perform, if_pos rfl, run_fst, hnow, hlater]
      rfl

theorem requested_perform (w : World) (m : Memory) (events : List Event) :
    (perform true w m events).2.requested =
      Text.distinct.go m.requested (((calls events).filterMap Call.subject?).map Subject.page) := by
  induction events generalizing w m with
  | nil => rfl
  | cons event events ih =>
    cases event with
    | change w' => exact ih w' m
    | call c =>
      have hcalls : calls (.call c :: events) = c :: calls events := rfl
      rw [perform, if_pos rfl, hcalls, ih]
      cases hs : c.subject? with
      | none => rw [List.filterMap_cons_none hs, run_snd_of_subject?_eq_none hs]
      | some s =>
        rw [List.filterMap_cons_some hs, List.map_cons, run_snd_of_subject? hs, Memory.requested_learn,
          ← Text.distinct_go_append]
        rfl

/-- What a call comes to without connection: nothing is found, but to ask for an RFC by something that is no
number still fails. -/
def Call.unconnected : Call → Outcome
  | rfc number => .rfc (if (Text.integer? number).isSome then .ok none else .error .notANumber)
  | draft _ => .draft none
  | registry => .registry (.ok none)
  | downrefs _ => .downrefs (.ok [])

theorem unanswered_inquiry (c : Call) : c.inquiry.unanswered = c.unconnected := by
  cases c with
  | rfc number =>
    have hrfc : (Call.rfc number).inquiry.unanswered = .rfc (told (fun _ => none) number) := by
      simp only [Inquiry.unanswered, Call.inquiry, Inquiry.answer_then, answer_rfc]
      rfl
    have hpage : about (fun _ => none) number = none := by
      unfold about
      cases pageOf? number <;> rfl
    rw [hrfc, told, hpage]
    rfl
  | draft name => rfl
  | registry => rfl
  | downrefs labels => rfl

theorem perform_unconnected (w : World) (m : Memory) (events : List Event) :
    perform false w m events = ((calls events).map Call.unconnected, m) := by
  induction events generalizing w with
  | nil => rfl
  | cons event events ih =>
    cases event with
    | change w' => exact ih w'
    | call c =>
      have hcalls : calls (.call c :: events) = c :: calls events := rfl
      rw [perform, if_neg Bool.false_ne_true, hcalls, ih, unanswered_inquiry]
      rfl

end Histories

/-- Nothing is found. -/
def Outcome.isEmpty : Outcome → Bool
  | rfc (.ok none) | draft none | registry (.ok none) | downrefs (.ok []) => true
  | _ => false

/-- Any history of calls and changes of the world.  The pages requested are those that the calls need, each
once and where it is first needed, which comes to one page for each subject.  Every call has the outcome
that it has by itself in the world of first replies.  Without connection nothing is requested and nothing
found, and only a call about an RFC without a number fails. -/
theorem perform_firstReplies (w : World) (events : List Event) :
    let history := perform true w .empty events
    history.2.requested.Nodup ∧
    history.2.requested =
      ((calls events).flatMap fun c => c.inquiry.needed (firstReplies w events)).eraseDups ∧
    history.2.requested = ((calls events).filterMap Call.subject?).eraseDups.map Subject.page ∧
    Function.Injective Subject.page ∧
    history.1 = (calls events).map (fun c => c.inquiry.answer (firstReplies w events)) ∧
    perform false w .empty events = ((calls events).map Call.unconnected, .empty) ∧
    ∀ c : Call, c.unconnected.isEmpty ∨ c.subject? = none ∧ c.unconnected = .rfc (.error .notANumber) := by
  intro history
  have hrequested : history.2.requested =
      Text.distinct (((calls events).filterMap Call.subject?).map Subject.page) :=
    requested_perform w .empty events
  have hneeded : ((calls events).flatMap fun c => c.inquiry.needed (firstReplies w events)) =
      ((calls events).filterMap Call.subject?).map Subject.page := by
    rw [List.filterMap_eq_flatMap_toList, List.map_flatMap]
    refine List.flatMap_congr fun c _ => ?_
    rw [needed_eq]
    cases c.subject? <;> rfl
  have hsubjects : Text.distinct (((calls events).filterMap Call.subject?).map Subject.page) =
      (Text.distinct ((calls events).filterMap Call.subject?)).map Subject.page := by
    simp only [← List.filterMap_eq_map]
    apply Text.distinct_filterMap
    intro s _ s' _ page hs hs'
    exact page_injective ((Option.some.inj hs).trans (Option.some.inj hs').symm)
  refine ⟨?_, ?_, ?_, page_injective, ?_, perform_unconnected w .empty events, ?_⟩
  · rw [hrequested]
    exact Text.nodup_distinct _
  · rw [hneeded, hrequested, Text.distinct_eq_eraseDups]
  · rw [hrequested, hsubjects, Text.distinct_eq_eraseDups]
  · have houtcomes := perform_fst w .empty events
    rwa [Memory.overlay_empty] at houtcomes
  · intro c
    cases c with
    | rfc number =>
      cases hn : Text.integer? number with
      | none => exact .inr (by simp [Call.subject?, Call.unconnected, hn])
      | some n => exact .inl (by simp [Call.unconnected, hn, Outcome.isEmpty])
    | _ => exact .inl rfl

/-- A call about an RFC by a word is no more successful without connection than with it. -/
theorem not_isEmpty_unconnected :
    ¬∀ (w : World) (events : List Event), ∀ outcome ∈ (perform false w .empty events).1, outcome.isEmpty := by
  intro h
  have hword : Text.integer? "abc".toList = none := by decide
  have hfails : (Call.rfc "abc".toList).unconnected = .rfc (.error .notANumber) := by
    rw [Call.unconnected, hword]
    rfl
  have hempty := h (fun _ => none) [.call (.rfc "abc".toList)] (.rfc (.error .notANumber)) (by
    rw [perform_unconnected, ← hfails]
    exact List.mem_singleton_self _)
  cases hempty

end Lookup
end DraftLint
