import DraftLint.Proofs.Markup.Starts

/-!
# Children in their elements

The elements inside an element are its children and the children of the elements inside it.  So the text behind each of
them stands directly inside one that holds it.
-/

namespace DraftLint.Markup

/-- The elements among the nodes, as they stand in the element that holds the nodes. -/
def childrenIn (parent : Element) : List Node → List Occurrence
  | [] => []
  | .element tag content :: nodes => ⟨⟨tag, content⟩, some parent, leadingText nodes⟩ :: childrenIn parent nodes
  | _ :: nodes => childrenIn parent nodes

/-- The texts behind the elements and references among the nodes. -/
def tailsOf : List Node → List Text
  | [] => []
  | .text _ :: nodes => tailsOf nodes
  | _ :: nodes => leadingText nodes :: tailsOf nodes

namespace Element

/-- The child elements as they stand in the element. -/
def childOccurrences (e : Element) : List Occurrence :=
  childrenIn e e.content

/-- The texts directly inside an element: in front of its first child, and behind each of its children. -/
def directTexts (e : Element) : List Text :=
  e.leadText :: tailsOf e.content

end Element

section Inside

variable {o : Occurrence} {e : Element}

theorem mem_occurrencesIn_iff (parent : Element) : (nodes : List Node) →
    (o ∈ occurrencesIn parent nodes ↔
      o ∈ childrenIn parent nodes ∨ ∃ e ∈ nodes.flatMap Node.elements, o ∈ e.childOccurrences)
  | [] => by simp [occurrencesIn, childrenIn]
  | .text _ :: nodes | .entity .. :: nodes => by
    have hrest := mem_occurrencesIn_iff parent nodes
    simpa [occurrencesIn, Node.occurrences, childrenIn, Node.elements] using hrest
  | .element tag content :: nodes => by
    have hinside := mem_occurrencesIn_iff ⟨tag, content⟩ content
    have hrest := mem_occurrencesIn_iff parent nodes
    have hall : ∀ e : Element, e ∈ Node.elements (.element tag content) ↔
        e = ⟨tag, content⟩ ∨ e ∈ content.flatMap Node.elements := by
      intro e
      rw [Node.elements, Element.all_eq, List.mem_cons]
    simp only [occurrencesIn, Node.occurrences, childrenIn, List.flatMap_cons, List.mem_append, List.mem_cons, hinside,
      hrest, hall, or_and_right, exists_or, exists_eq_left, Element.childOccurrences]
    grind

/-- What stands inside an element is a child in it or in an element inside it. -/
theorem Element.mem_inner_iff : o ∈ e.inner ↔ ∃ e' ∈ e.all, o ∈ e'.childOccurrences := by
  rw [inner, mem_occurrencesIn_iff, Element.all_eq]
  simp [childOccurrences]

theorem mem_tailsOf_of_mem_childrenIn {parent : Element} {nodes : List Node} (h : o ∈ childrenIn parent nodes) :
    o.tail ∈ tailsOf nodes := by
  induction nodes with
  | nil => cases h
  | cons n nodes ih =>
    cases n with
    | text t => exact ih h
    | entity name line => exact List.mem_cons_of_mem _ (ih h)
    | element tag content =>
      rcases List.mem_cons.mp h with rfl | h
      · exact List.mem_cons_self
      · exact List.mem_cons_of_mem _ (ih h)

/-- The text behind an element inside another one stands directly inside one of the elements there. -/
theorem Element.exists_mem_directTexts (h : o ∈ e.inner) : ∃ e' ∈ e.all, o.tail ∈ e'.directTexts := by
  obtain ⟨e', he', ho⟩ := mem_inner_iff.mp h
  exact ⟨e', he', List.mem_cons_of_mem _ (mem_tailsOf_of_mem_childrenIn ho)⟩

end Inside
end DraftLint.Markup
