import DraftLint.Inquiry

/-!
# Answers of inquiries

Inquiries obey the laws of monads.  A memory holds what the world has said, so that a run with a memory
comes to the same result as asking the world every time, and requests every page that is needed once.
-/

namespace DraftLint

namespace Inquiry

variable {α β : Type}

theorem bind_done_right (i : Inquiry α) : i.bind done = i := by
  induction i with
  | done a => rfl
  | ask p next ih => exact congrArg (ask p) (funext ih)

theorem bind_bind {γ : Type} (i : Inquiry α) (f : α → Inquiry β) (g : β → Inquiry γ) :
    (i.bind f).bind g = i.bind fun a => (f a).bind g := by
  induction i with
  | done a => rfl
  | ask p next ih => exact congrArg (ask p) (funext ih)

instance : LawfulMonad Inquiry := by
  refine LawfulMonad.mk' Inquiry ?_ ?_ ?_
  · intro α i
    exact bind_done_right i
  · intro α β a f
    rfl
  · intro α β γ i f g
    exact bind_bind i f g

theorem answer_then (w : World) (i : Inquiry α) (f : α → Inquiry β) :
    (i >>= f).answer w = (f (i.answer w)).answer w :=
  answer_bind w i f

theorem needed_then (w : World) (i : Inquiry α) (f : α → Inquiry β) :
    (i >>= f).needed w = i.needed w ++ (f (i.answer w)).needed w :=
  needed_bind w i f

theorem answer_mapM (w : World) (f : α → Inquiry β) (xs : List α) :
    (xs.mapM f).answer w = xs.map fun x => (f x).answer w := by
  induction xs with
  | nil => rfl
  | cons x xs ih =>
    rw [List.mapM_cons, answer_then, answer_then, ih]
    rfl

theorem answer_pages (w : World) (ps : List String) : (pages ps).answer w = ps.map w := by
  induction ps with
  | nil => rfl
  | cons p ps ih =>
    rw [pages, answer, answer_bind, ih]
    rfl

theorem needed_pages (w : World) (ps : List String) : (pages ps).needed w = ps := by
  induction ps with
  | nil => rfl
  | cons p ps ih =>
    rw [pages, needed, needed_bind, ih]
    simp [needed]

end Inquiry

namespace Memory

/-- What is remembered of a page is what the world says. -/
def Reflects (m : Memory) (w : World) : Prop :=
  ∀ page r, m.reply? page = some r → r = w page

theorem reflects_empty (w : World) : empty.Reflects w := by
  intro page r h
  simp [empty, reply?] at h

theorem Reflects.note {m : Memory} {w : World} (h : m.Reflects w) (page : String) :
    (m.note page (w page)).Reflects w := by
  intro other r hr
  simp only [reply?, Memory.note, List.find?_append, Option.map_or, Option.or_eq_some_iff] at hr
  rcases hr with hr | ⟨-, hr⟩
  · exact h other r hr
  · obtain ⟨entry, hfind, rfl⟩ := Option.map_eq_some_iff.mp hr
    have hpage := List.find?_some hfind
    obtain rfl := List.mem_singleton.mp (List.mem_of_find?_eq_some hfind)
    rw [← beq_iff_eq.mp hpage]

theorem requested_note (m : Memory) (page : String) (r : Reply) :
    (m.note page r).requested = m.requested ++ [page] := by
  simp [requested, note]

theorem reply?_eq_none_iff {m : Memory} {page : String} : m.reply? page = none ↔ page ∉ m.requested := by
  rw [reply?, Option.map_eq_none_iff, List.find?_eq_none, requested, List.mem_map]
  simp only [beq_iff_eq, not_exists, not_and]

end Memory

namespace Inquiry

variable {α : Type}

/-- A memory makes no difference to the result. -/
theorem run_eq_answer {w : World} {m : Memory} (h : m.Reflects w) (i : Inquiry α) :
    (i.run w m).1 = i.answer w := by
  induction i generalizing m with
  | done a => rfl
  | ask p next ih =>
    rw [run, answer]
    cases hr : m.reply? p with
    | some r =>
      obtain rfl := h p r hr
      exact ih _ h
    | none => exact ih _ (h.note p)

end Inquiry
end DraftLint
