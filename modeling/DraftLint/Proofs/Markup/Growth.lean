import DraftLint.Markup.Document
import DraftLint.Proofs.Markup.Starts

/-!
# Documents that grow

A document grows by elements, which are put around or beside those that are there, and by entities.  All elements from
before are still found in it, and those of a name that is not added were found before.
-/

namespace DraftLint.Markup

/-- The starts of the elements say the same, but for their lines. -/
structure Element.SameStart (e e' : Element) : Prop where
  name : e'.tag.name = e.tag.name
  attributes : e'.tag.attributes = e.tag.attributes

namespace Element.SameStart

variable {e e' : Element}

theorem isNamed (h : e.SameStart e') (name : String) : e'.isNamed name = e.isNamed name := by
  rw [Element.isNamed, Element.isNamed, h.name]

theorem attribute? (h : e.SameStart e') (name : String) : e'.attribute? name = e.attribute? name := by
  rw [Element.attribute?, Element.attribute?, h.attributes]

theorem filled? (h : e.SameStart e') (name : String) : e'.filled? name = e.filled? name := by
  rw [Element.filled?, Element.filled?, h.attribute?]

theorem attributeText (h : e.SameStart e') (name : String) : e'.attributeText name = e.attributeText name := by
  rw [Element.attributeText, Element.attributeText, h.attribute?]

end Element.SameStart

/-- The nodes grow by elements that do not have the name: each element that was there is kept, though it may move to
another line, and a new one takes in some of the nodes or none.  Whatever is no element may come and go. -/
inductive Grows (name : String) : List Node → List Node → Prop
  | nil : Grows name [] []
  | come {n : Node} {ns ns' : List Node} (hn : n.elements = []) (h : Grows name ns ns') : Grows name ns (n :: ns')
  | go {n : Node} {ns ns' : List Node} (hn : n.elements = []) (h : Grows name ns ns') : Grows name (n :: ns) ns'
  | keep {tag tag' : Tag} {content content' ns ns' : List Node} (hname : tag'.name = tag.name)
    (hattributes : tag'.attributes = tag.attributes) (hinside : Grows name content content') (h : Grows name ns ns') :
    Grows name (.element tag content :: ns) (.element tag' content' :: ns')
  | add {tag : Tag} {taken content ns ns' : List Node} (hname : tag.name ≠ name.toList)
    (hinside : Grows name taken content) (h : Grows name ns ns') :
    Grows name (taken ++ ns) (.element tag content :: ns')

namespace Grows

variable {name : String} {ns ns' : List Node}

theorem mem_elements_of_element {tag : Tag} {content : List Node} {e : Element} :
    e ∈ (Node.element tag content :: ns).flatMap Node.elements ↔
      e = ⟨tag, content⟩ ∨ e ∈ content.flatMap Node.elements ∨ e ∈ ns.flatMap Node.elements := by
  rw [List.flatMap_cons, List.mem_append, Node.elements, Element.all_eq, List.mem_cons, or_assoc]

theorem elements_of_other {n : Node} (hn : n.elements = []) (ns : List Node) :
    (n :: ns).flatMap Node.elements = ns.flatMap Node.elements := by
  rw [List.flatMap_cons, hn, List.nil_append]

/-- Each element is found again. -/
theorem exists_after (h : Grows name ns ns') :
    ∀ e ∈ ns.flatMap Node.elements, ∃ e' ∈ ns'.flatMap Node.elements, e.SameStart e' := by
  induction h with
  | nil => exact fun e he => absurd he List.not_mem_nil
  | come hn h ih => rwa [elements_of_other hn]
  | go hn h ih => rwa [elements_of_other hn]
  | keep hname hattributes hinside h ihinside ih =>
    intro e he
    rcases mem_elements_of_element.mp he with rfl | he | he
    · exact ⟨_, mem_elements_of_element.mpr (.inl rfl), hname, hattributes⟩
    · obtain ⟨e', he', hsame⟩ := ihinside e he
      exact ⟨e', mem_elements_of_element.mpr (.inr (.inl he')), hsame⟩
    · obtain ⟨e', he', hsame⟩ := ih e he
      exact ⟨e', mem_elements_of_element.mpr (.inr (.inr he')), hsame⟩
  | add hname hinside h ihinside ih =>
    intro e he
    rw [List.flatMap_append, List.mem_append] at he
    rcases he with he | he
    · obtain ⟨e', he', hsame⟩ := ihinside e he
      exact ⟨e', mem_elements_of_element.mpr (.inr (.inl he')), hsame⟩
    · obtain ⟨e', he', hsame⟩ := ih e he
      exact ⟨e', mem_elements_of_element.mpr (.inr (.inr he')), hsame⟩

/-- An element of the name that is not added was there before. -/
theorem exists_before (h : Grows name ns ns') :
    ∀ e' ∈ ns'.flatMap Node.elements, e'.isNamed name → ∃ e ∈ ns.flatMap Node.elements, e.SameStart e' := by
  induction h with
  | nil => exact fun e' he' => absurd he' List.not_mem_nil
  | come hn h ih => rwa [elements_of_other hn]
  | go hn h ih => rwa [elements_of_other hn]
  | keep hname hattributes hinside h ihinside ih =>
    intro e' he' hnamed
    rcases mem_elements_of_element.mp he' with rfl | he' | he'
    · exact ⟨_, mem_elements_of_element.mpr (.inl rfl), hname, hattributes⟩
    · obtain ⟨e, he, hsame⟩ := ihinside e' he' hnamed
      exact ⟨e, mem_elements_of_element.mpr (.inr (.inl he)), hsame⟩
    · obtain ⟨e, he, hsame⟩ := ih e' he' hnamed
      exact ⟨e, mem_elements_of_element.mpr (.inr (.inr he)), hsame⟩
  | add hname hinside h ihinside ih =>
    intro e' he' hnamed
    rw [List.flatMap_append]
    rcases mem_elements_of_element.mp he' with rfl | he' | he'
    · exact absurd (beq_iff_eq.mp hnamed) hname
    · obtain ⟨e, he, hsame⟩ := ihinside e' he' hnamed
      exact ⟨e, List.mem_append_left _ he, hsame⟩
    · obtain ⟨e, he, hsame⟩ := ih e' he' hnamed
      exact ⟨e, List.mem_append_right _ he, hsame⟩

end Grows

/-- The document grows by elements that do not have the name, and by entities. -/
structure Document.Grows (name : String) (d d' : Document) : Prop where
  root : d.root.SameStart d'.root
  content : Markup.Grows name d.root.content d'.root.content
  entities : d.entities ⊆ d'.entities

namespace Document.Grows

variable {name : String} {d d' : Document}

theorem exists_after (h : Document.Grows name d d') {e : Element} (he : e ∈ d.root.all) :
    ∃ e' ∈ d'.root.all, e.SameStart e' := by
  rw [Element.all_eq] at he ⊢
  rcases List.mem_cons.mp he with rfl | he
  · exact ⟨_, List.mem_cons_self .., h.root⟩
  · obtain ⟨e', he', hsame⟩ := h.content.exists_after e he
    exact ⟨e', List.mem_cons_of_mem _ he', hsame⟩

theorem exists_before (h : Document.Grows name d d') {e' : Element} (he' : e' ∈ d'.root.allNamed name) :
    ∃ e ∈ d.root.allNamed name, e.SameStart e' := by
  obtain ⟨he', hnamed⟩ := List.mem_filter.mp he'
  suffices hbefore : ∃ e ∈ d.root.all, e.SameStart e' by
    obtain ⟨e, he, hsame⟩ := hbefore
    exact ⟨e, List.mem_filter.mpr ⟨he, (hsame.isNamed name).symm.trans hnamed⟩, hsame⟩
  rw [Element.all_eq] at he' ⊢
  rcases List.mem_cons.mp he' with rfl | he'
  · exact ⟨_, List.mem_cons_self .., h.root⟩
  · obtain ⟨e, he, hsame⟩ := h.content.exists_before e' he' hnamed
    exact ⟨e, List.mem_cons_of_mem _ he, hsame⟩

end Document.Grows
end DraftLint.Markup
