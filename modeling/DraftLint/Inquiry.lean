import DraftLint.Text.Basic

/-!
# Inquiries

Computations that ask for pages on the way.  An inquiry can be answered by a world, in which every page
has one reply, or with a memory, so that each page is requested at most once and keeps the reply that it
had at first.
-/

namespace DraftLint

/-- The text of a page, if there is one. -/
abbrev Reply := Option Text

/-- What each page has to say at some moment. -/
abbrev World := String → Reply

inductive Inquiry (α : Type) where
  | done (a : α)
  | ask (page : String) (next : Reply → Inquiry α)

namespace Inquiry

variable {α β : Type}

def bind (i : Inquiry α) (f : α → Inquiry β) : Inquiry β :=
  match i with
  | done a => f a
  | ask page next => ask page fun r => (next r).bind f

instance : Monad Inquiry where
  pure := done
  bind := bind

/-- The reply of one page. -/
def page (p : String) : Inquiry Reply :=
  ask p done

/-- The replies of pages, in order. -/
def pages : List String → Inquiry (List Reply)
  | [] => done []
  | p :: ps => ask p fun r => (pages ps).bind fun rs => done (r :: rs)

/-- The result in a world. -/
def answer (w : World) : Inquiry α → α
  | done a => a
  | ask p next => (next (w p)).answer w

/-- The pages needed in a world, in order, with repetitions. -/
def needed (w : World) : Inquiry α → List String
  | done _ => []
  | ask p next => p :: (next (w p)).needed w

/-- The result if nothing can be had. -/
def unanswered (i : Inquiry α) : α :=
  i.answer fun _ => none

@[simp] theorem bind_done (a : α) (f : α → Inquiry β) : (done a).bind f = f a :=
  rfl

theorem answer_bind (w : World) (i : Inquiry α) (f : α → Inquiry β) :
    (i.bind f).answer w = (f (i.answer w)).answer w := by
  induction i with
  | done a => rfl
  | ask p next ih => exact ih (w p)

theorem needed_bind (w : World) (i : Inquiry α) (f : α → Inquiry β) :
    (i.bind f).needed w = i.needed w ++ (f (i.answer w)).needed w := by
  induction i with
  | done a => rfl
  | ask p next ih => simp [bind, needed, answer, ih (w p)]

end Inquiry

/-- The replies so far, in the order in which their pages were first requested. -/
structure Memory where
  replies : List (String × Reply)

namespace Memory

def empty : Memory :=
  ⟨[]⟩

/-- The pages requested. -/
def requested (m : Memory) : List String :=
  m.replies.map (·.1)

/-- What is remembered of a page. -/
def reply? (m : Memory) (page : String) : Option Reply :=
  (m.replies.find? (·.1 == page)).map (·.2)

/-- The reply of a page is remembered. -/
def note (m : Memory) (page : String) (r : Reply) : Memory :=
  ⟨m.replies ++ [(page, r)]⟩

end Memory

namespace Inquiry

variable {α : Type}

/-- The result and the memory after it: a page is requested only if nothing is remembered of it. -/
def run (w : World) (m : Memory) : Inquiry α → α × Memory
  | done a => (a, m)
  | ask p next =>
    match m.reply? p with
    | some r => (next r).run w m
    | none => (next (w p)).run w (m.note p (w p))

end Inquiry
end DraftLint
