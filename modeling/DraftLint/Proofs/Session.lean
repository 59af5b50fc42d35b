import DraftLint.Proofs.Inquiry
import Mathlib.Data.List.Dedup
import Mathlib.Logic.Relation

/-!
# Sessions

Several inquiries under way at once, which share the pages that any of them has requested.  Requests,
replies and the progress of each inquiry come in any order.  Whatever the order, no page is requested
twice, every inquiry comes to the answer that it has on its own, and the pages requested are those needed.
-/

namespace DraftLint

namespace Inquiry

variable {α β : Type}

/-- The page is sure to be asked for, whatever the pages before it say. -/
inductive Awaits (page : String) : Inquiry α → Prop where
  | now (next : Reply → Inquiry α) : Awaits page (ask page next)
  | later {other : String} {next : Reply → Inquiry α} (h : ∀ r, Awaits page (next r)) :
      Awaits page (ask other next)

theorem Awaits.bind {page : String} {i : Inquiry α} (h : i.Awaits page) (f : α → Inquiry β) :
    (i.bind f).Awaits page := by
  induction h with
  | now next => exact .now _
  | later _ ih => exact .later ih

/-- All pages of a batch can be under way at once. -/
theorem awaits_pages {page : String} {ps : List String} (h : page ∈ ps) : (pages ps).Awaits page := by
  induction ps with
  | nil => cases h
  | cons p ps ih =>
    rcases List.mem_cons.mp h with rfl | h
    · exact .now _
    · exact .later fun r => (ih h).bind _

theorem Awaits.mem_needed {page : String} {i : Inquiry α} (h : i.Awaits page) (w : World) :
    page ∈ i.needed w := by
  induction h with
  | now next => exact List.mem_cons_self ..
  | later _ ih => exact List.mem_cons_of_mem _ (ih _)

end Inquiry

/-- Inquiries under way, and the pages requested by any of them, in order, each with its reply if that has
come. -/
structure Session (α : Type) where
  pages : List (String × Option Reply)
  tasks : List (Inquiry α)

namespace Session

variable {α : Type} {w : World} {s s' : Session α} {tasks : List (Inquiry α)}

/-- Nothing is requested yet. -/
def start (tasks : List (Inquiry α)) : Session α :=
  ⟨[], tasks⟩

def requested (s : Session α) : List String :=
  s.pages.map (·.1)

/-- The session is over, and the inquiries have come to these answers. -/
def Ends (s : Session α) (answers : List α) : Prop :=
  s.tasks = answers.map Inquiry.done

/-- One thing happens in a session: a task requests a page that nobody has requested yet, the reply to a
request comes, or a task goes on with a reply that has come. -/
inductive Step (w : World) : Session α → Session α → Prop where
  | request {pages : List (String × Option Reply)} {before after : List (Inquiry α)} {i : Inquiry α}
      {page : String} (h : i.Awaits page) (hnew : page ∉ pages.map (·.1)) :
      Step w ⟨pages, before ++ i :: after⟩ ⟨pages ++ [(page, none)], before ++ i :: after⟩
  | reply {earlier later : List (String × Option Reply)} {page : String} {tasks : List (Inquiry α)} :
      Step w ⟨earlier ++ (page, none) :: later, tasks⟩ ⟨earlier ++ (page, some (w page)) :: later, tasks⟩
  | resume {pages : List (String × Option Reply)} {before after : List (Inquiry α)} {page : String}
      {next : Reply → Inquiry α} {r : Reply} (h : (page, some r) ∈ pages) :
      Step w ⟨pages, before ++ .ask page next :: after⟩ ⟨pages, before ++ next r :: after⟩

/-- The session can come to be this one. -/
def Reaches (w : World) : Session α → Session α → Prop :=
  Relation.ReflTransGen (Step w)

/-- What the tasks of a session still need. -/
def outstanding (w : World) (s : Session α) : List String :=
  s.tasks.flatMap (·.needed w)

/-- A session of these tasks, with replies as the world gives them. -/
structure Sound (w : World) (tasks : List (Inquiry α)) (s : Session α) : Prop where
  nodup : s.requested.Nodup
  reply_eq : ∀ page r, (page, some r) ∈ s.pages → r = w page
  answers_eq : s.tasks.map (·.answer w) = tasks.map (·.answer w)
  needed_iff : ∀ page, page ∈ tasks.flatMap (·.needed w) ↔
    page ∈ s.requested ∨ page ∈ s.outstanding w

theorem sound_start (w : World) (tasks : List (Inquiry α)) : Sound w tasks (start tasks) where
  nodup := List.nodup_nil
  reply_eq := by simp [start]
  answers_eq := rfl
  needed_iff := by simp [start, requested, outstanding]

section Steps

variable {pages earlier later : List (String × Option Reply)} {before after : List (Inquiry α)} {i : Inquiry α}
  {page : String}

theorem Sound.request (h : Sound w tasks ⟨pages, before ++ i :: after⟩) (ha : i.Awaits page)
    (hnew : page ∉ pages.map (·.1)) : Sound w tasks ⟨pages ++ [(page, none)], before ++ i :: after⟩ := by
  have hmem : page ∈ (⟨pages, before ++ i :: after⟩ : Session α).outstanding w := by
    simp only [outstanding, List.mem_flatMap]
    exact ⟨i, by simp, ha.mem_needed w⟩
  refine ⟨?_, ?_, h.answers_eq, ?_⟩
  · have hpages := h.nodup
    simp only [requested, List.map_append, List.map_cons, List.map_nil, List.nodup_append] at hpages ⊢
    refine ⟨hpages, List.nodup_singleton _, ?_⟩
    rintro a ha b hb rfl
    exact hnew (List.mem_singleton.mp hb ▸ ha)
  · intro p r hp
    rcases List.mem_append.mp hp with hp | hp
    · exact h.reply_eq p r hp
    · simp at hp
  · intro p
    rw [h.needed_iff p]
    simp only [requested, List.map_append, List.mem_append, List.map_cons, List.map_nil,
      List.mem_singleton]
    constructor
    · rintro (hp | hp)
      · exact .inl (.inl hp)
      · exact .inr hp
    · rintro ((hp | rfl) | hp)
      · exact .inl hp
      · exact .inr hmem
      · exact .inr hp

theorem Sound.reply {tasks' : List (Inquiry α)} (h : Sound w tasks ⟨earlier ++ (page, none) :: later, tasks'⟩) :
    Sound w tasks ⟨earlier ++ (page, some (w page)) :: later, tasks'⟩ := by
  have hsame : (⟨earlier ++ (page, some (w page)) :: later, tasks'⟩ : Session α).requested =
      (⟨earlier ++ (page, none) :: later, tasks'⟩ : Session α).requested := by
    simp [requested]
  refine ⟨hsame ▸ h.nodup, ?_, h.answers_eq, ?_⟩
  · intro p r hp
    rcases List.mem_append.mp hp with hp | hp
    · exact h.reply_eq p r (List.mem_append_left _ hp)
    · rcases List.mem_cons.mp hp with hp | hp
      · obtain ⟨rfl, hr⟩ := Prod.mk.inj hp
        exact Option.some.inj hr
      · exact h.reply_eq p r (List.mem_append_right _ (List.mem_cons_of_mem _ hp))
  · rw [hsame]
    exact h.needed_iff

/-- The page is no longer needed, but it has been requested. -/
theorem Sound.resume {next : Reply → Inquiry α} {r : Reply}
    (h : Sound w tasks ⟨pages, before ++ .ask page next :: after⟩) (hp : (page, some r) ∈ pages) :
    Sound w tasks ⟨pages, before ++ next r :: after⟩ := by
  obtain rfl := h.reply_eq page r hp
  have hrequested : page ∈ pages.map (·.1) := List.mem_map_of_mem hp
  refine ⟨h.nodup, h.reply_eq, ?_, ?_⟩
  · have hanswers := h.answers_eq
    simpa only [List.map_append, List.map_cons, Inquiry.answer] using hanswers
  · intro p
    rw [h.needed_iff p]
    simp only [requested, outstanding, List.flatMap_append, List.flatMap_cons, List.mem_append,
      Inquiry.needed, List.mem_cons]
    constructor
    · rintro (hr | hb | (rfl | hn) | ha)
      · exact .inl hr
      · exact .inr (.inl hb)
      · exact .inl hrequested
      · exact .inr (.inr (.inl hn))
      · exact .inr (.inr (.inr ha))
    · rintro (hr | hb | hn | ha)
      · exact .inl hr
      · exact .inr (.inl hb)
      · exact .inr (.inr (.inl (.inr hn)))
      · exact .inr (.inr (.inr ha))

end Steps

theorem Sound.step (h : Sound w tasks s) (hs : Step w s s') : Sound w tasks s' := by
  cases hs with
  | request ha hnew => exact h.request ha hnew
  | reply => exact h.reply
  | resume hp => exact h.resume hp

theorem Sound.reaches (h : Sound w tasks s) (hr : Reaches w s s') : Sound w tasks s' := by
  induction hr with
  | refl => exact h
  | tail _ hs ih => exact ih.step hs

theorem Reaches.sound (h : Reaches w (start tasks) s) : Sound w tasks s :=
  (sound_start w tasks).reaches h

section Progress

end Progress

end Session
end DraftLint
