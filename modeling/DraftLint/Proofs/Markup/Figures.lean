import DraftLint.Markup.Prose
import Mathlib.Tactic.SplitIfs

/-!
# Text inside figures

Two trees that differ in nothing but the text inside code and artwork have the same running text, and their
elements start alike.  Such text may hold line feeds, so that the lines of what comes after it differ as well.
-/

namespace DraftLint.Markup

/-- Nodes that differ in text inside figures only, and in their lines; `inside` says that they stand inside a
figure themselves. -/
inductive AlikeNodes : (inside : Bool) → List Node → List Node → Prop
  | nil (inside : Bool) : AlikeNodes inside [] []
  | text {inside : Bool} {ns ns' : List Node} (t : Text) (h : AlikeNodes inside ns ns') :
      AlikeNodes inside (.text t :: ns) (.text t :: ns')
  | textLeft {ns ns' : List Node} (t : Text) (h : AlikeNodes true ns ns') : AlikeNodes true (.text t :: ns) ns'
  | textRight {ns ns' : List Node} (t : Text) (h : AlikeNodes true ns ns') : AlikeNodes true ns (.text t :: ns')
  | entity {inside : Bool} {ns ns' : List Node} (name : Text) (line line' : Nat)
      (h : AlikeNodes inside ns ns') : AlikeNodes inside (.entity name line :: ns) (.entity name line' :: ns')
  | element {inside : Bool} {ns ns' content content' : List Node} (name : Text) (line line' : Nat)
      (attributes : List (Text × Text))
      (hcontent : AlikeNodes (inside || (Node.element ⟨name, line, attributes⟩ content).isFigure) content content')
      (h : AlikeNodes inside ns ns') :
      AlikeNodes inside (.element ⟨name, line, attributes⟩ content :: ns)
        (.element ⟨name, line', attributes⟩ content' :: ns')

/-- The elements start alike, and what they hold differs in text inside figures only. -/
structure Element.Alike (e e' : Element) : Prop where
  name : e.tag.name = e'.tag.name
  attributes : e.tag.attributes = e'.tag.attributes
  content : AlikeNodes false e.content e'.content

namespace AlikeNodes

variable {inside : Bool} {ns ns' : List Node}

theorem all_isFigure (h : AlikeNodes inside ns ns') (hf : inside = false) :
    ns.all Node.isFigure = ns'.all Node.isFigure := by
  induction h with
  | nil => rfl
  | text t h ih => rfl
  | textLeft | textRight => cases hf
  | entity name line line' h ih => rfl
  | element name line line' attributes hcontent h _ ih =>
    simp only [List.all_cons, ih hf]
    rfl

/-- An empty cross-reference is as empty in the other tree. -/
theorem emptyReference?_eq (h : AlikeNodes false ns ns') (name : Text) (line line' : Nat)
    (attributes : List (Text × Text)) :
    emptyReference? ⟨name, line, attributes⟩ ns = emptyReference? ⟨name, line', attributes⟩ ns' := by
  simp only [emptyReference?, h.all_isFigure rfl]
  rfl

/-- A figure is left out as a whole; whatever else is kept stands outside of figures. -/
theorem proseOf_eq (h : AlikeNodes inside ns ns') (hf : inside = false) : proseOf ns = proseOf ns' := by
  induction h with
  | nil => rfl
  | text t h ih => simp [proseOf, Node.isFigure, Node.prose, ih hf]
  | textLeft | textRight => cases hf
  | entity name line line' h ih => simp [proseOf, Node.isFigure, Node.prose, ih hf]
  | @element _ ns ns' content content' name line line' attributes hcontent h ihcontent ih =>
    subst hf
    by_cases hfigure : (Node.element ⟨name, line, attributes⟩ content).isFigure = true
    · have hfigure' : (Node.element ⟨name, line', attributes⟩ content').isFigure = true := hfigure
      rw [proseOf, proseOf, if_pos hfigure, if_pos hfigure', ih rfl]
    · have hfigure' : ¬(Node.element ⟨name, line', attributes⟩ content').isFigure = true := hfigure
      have houtside := Bool.eq_false_iff.mpr hfigure
      rw [Bool.false_or, houtside] at hcontent
      rw [proseOf, proseOf, if_neg hfigure, if_neg hfigure', ih rfl, Node.prose, Node.prose,
        hcontent.emptyReference?_eq name line line', ihcontent houtside]

end AlikeNodes

/-- What the start of an element says, but for the line. -/
def Element.bare (e : Element) : Element :=
  ⟨⟨e.tag.name, 0, e.tag.attributes⟩, []⟩

/-- The elements of both trees start alike in turn. -/
theorem AlikeNodes.map_bare {inside : Bool} {ns ns' : List Node} (h : AlikeNodes inside ns ns')
    (parent parent' : Element) :
    (occurrencesIn parent ns).map (·.element.bare) = (occurrencesIn parent' ns').map (·.element.bare) := by
  induction h generalizing parent parent' with
  | nil => rfl
  | text t h ih | textLeft t h ih | textRight t h ih => exact ih parent parent'
  | entity name line line' h ih => exact ih parent parent'
  | @element _ ns ns' content content' name line line' attributes hcontent h ihcontent ih =>
    have hrest := ih parent parent'
    have hinner := ihcontent ⟨⟨name, line, attributes⟩, content⟩ ⟨⟨name, line', attributes⟩, content'⟩
    simp only [occurrencesIn, Node.occurrences, List.map_append, List.map_cons, hrest, hinner]
    rfl

namespace Element.Alike

variable {e e' : Element}

theorem runningText_eq (h : e.Alike e') : e.runningText = e'.runningText := by
  obtain ⟨⟨name, line, attributes⟩, content⟩ := e
  obtain ⟨⟨name', line', attributes'⟩, content'⟩ := e'
  obtain ⟨hname, hattributes, hcontent⟩ := h
  simp only at hname hattributes hcontent
  subst hname hattributes
  rw [runningText, runningText, Node.prose, Node.prose, hcontent.emptyReference?_eq name line line',
    hcontent.proseOf_eq rfl]

theorem map_bare_all (h : e.Alike e') : e.all.map bare = e'.all.map bare := by
  have hbare : e.bare = e'.bare := by
    rw [bare, bare, h.name, h.attributes]
  have hinner := h.content.map_bare e e'
  rw [all, all, walk, walk, inner, inner, List.map_map, List.map_map, List.map_cons, List.map_cons]
  exact List.cons_eq_cons.mpr ⟨hbare, hinner⟩

/-- A question about how elements start has the same answer in both trees. -/
theorem any_all (h : e.Alike e') {p : Element → Bool} (hp : ∀ x, p (bare x) = p x) :
    e.all.any p = e'.all.any p := by
  calc e.all.any p
      = (e.all.map bare).any p := by simp only [List.any_map, Function.comp_def, hp]
    _ = (e'.all.map bare).any p := by rw [h.map_bare_all]
    _ = e'.all.any p := by simp only [List.any_map, Function.comp_def, hp]

end Element.Alike
end DraftLint.Markup
