import DraftLint.Proofs.Markup.Reading

/-!
# Where elements start

Each element that is read has a start tag in the text, and its line is the one on which that ends.  The tags stand in the
order of the elements in the tree.
-/

namespace DraftLint.Markup

section StartTag

/-- The text is a name, perhaps with colons. -/
def IsWrittenName (t : Text) : Prop :=
  t.head?.any (fun c => isNameStart c || c == ':') ∧ ∀ c ∈ t, isNameChar c || c == ':'

def IsBlank (t : Text) : Prop :=
  ∀ c ∈ t, Read.isBlank c

/-- The text is a value between quotation marks. -/
inductive IsQuoted : Text → Prop
  | double {v : Text} (hv : '"' ∉ v) : IsQuoted ('"' :: (v ++ ['"']))
  | single {v : Text} (hv : '\'' ∉ v) : IsQuoted ('\'' :: (v ++ ['\'']))

/-- The text holds attributes and the blanks before, between and after them. -/
inductive HoldsAttributes : Text → Prop
  | blank {b : Text} (hb : IsBlank b) : HoldsAttributes b
  | attribute {b n b₁ b₂ v w : Text} (hb : IsBlank b) (hne : b ≠ []) (hn : IsWrittenName n) (hb₁ : IsBlank b₁)
    (hb₂ : IsBlank b₂) (hv : IsQuoted v) (hw : HoldsAttributes w) :
    HoldsAttributes (b ++ (n ++ (b₁ ++ ('=' :: (b₂ ++ (v ++ w))))))

/-- The text is a start tag of an element with the name. -/
inductive IsStartTag (n : Text) : Text → Prop
  | mk {w close : Text} (hn : IsWrittenName n) (hw : HoldsAttributes w) (hclose : close ∈ [">".toList, "/>".toList]) :
    IsStartTag n ('<' :: (n ++ (w ++ close)))

/-- The text is a start tag of the element, with a prefix for its namespace if the name has one. -/
def Element.HasStartTag (e : Element) (w : Text) : Prop :=
  ∃ n : QualifiedName, n.stem <:+ e.name ∧ IsStartTag n.written w

/-- From the line on, the text has start tags of the elements, one after the other, and each ends on the line of its
element. -/
inductive Starts : Nat → Text → List Element → Prop
  | none (line : Nat) (t : Text) : Starts line t []
  | next {line : Nat} {before tag after : Text} {e : Element} {es : List Element} (htag : e.HasStartTag tag)
    (hline : e.line = line + (before ++ tag).count '\n') (h : Starts e.line after es) :
    Starts line (before ++ (tag ++ after)) (e :: es)

end StartTag

section Starts

variable {line : Nat} {t u : Text} {es es' : List Element}

theorem Starts.after (t : Text) (h : Starts (line + t.count '\n') u es) : Starts line (t ++ u) es := by
  cases h with
  | none => exact .none line _
  | @next _ before tag after e es htag hline h =>
    rw [← List.append_assoc]
    refine .next htag ?_ h
    rw [hline, List.append_assoc, List.count_append, List.count_append, List.count_append, Nat.add_assoc]

/-- An element starts where its name stands after the first character of a tag. -/
theorem Starts.tag {e : Element} {n : QualifiedName} {w close : Text} (hclose : close ∈ [">".toList, "/>".toList])
    (hname : n.stem <:+ e.name) (hn : IsWrittenName n.written) (hw : HoldsAttributes w)
    (hline : e.line = line + (n.written ++ w).count '\n') (h : Starts e.line u es) :
    Starts line ('<' :: (n.written ++ (w ++ (close ++ u)))) (e :: es) := by
  have hcount : close.count '\n' = 0 := by
    simp only [List.mem_cons, List.not_mem_nil, or_false] at hclose
    rcases hclose with rfl | rfl <;> rfl
  have htag : e.HasStartTag ('<' :: (n.written ++ (w ++ close))) := ⟨n, hname, .mk hn hw hclose⟩
  have hline : e.line = line + ([] ++ '<' :: (n.written ++ (w ++ close))).count '\n' := by simpa [hcount] using hline
  have hnext := Starts.next htag hline h
  simpa using hnext

theorem Starts.append (h : Starts line t es) (h' : Starts (line + t.count '\n') u es') :
    Starts line (t ++ u) (es ++ es') := by
  induction h with
  | none line t => exact h'.after t
  | next htag hline h ih =>
    rw [List.append_assoc, List.append_assoc, List.cons_append]
    refine .next htag hline (ih ?_)
    rwa [hline, Nat.add_assoc, ← List.count_append, List.append_assoc]

end Starts

section Elements

/-- The elements at and inside a node. -/
def Node.elements : Node → List Element
  | .element tag content => (Element.mk tag content).all
  | _ => []

/-- The elements at and inside the nodes that have been read. -/
def Nodes.elements (ns : Nodes) : List Element :=
  ns.inOrder.flatMap Node.elements

theorem map_element_occurrencesIn (p : Element) (nodes : List Node) :
    (occurrencesIn p nodes).map Occurrence.element = nodes.flatMap Node.elements := by
  induction nodes with
  | nil => rfl
  | cons n nodes ih =>
    rw [occurrencesIn, List.map_append, ih, List.flatMap_cons]
    cases n <;> rfl

theorem Element.all_eq (e : Element) : e.all = e :: e.content.flatMap Node.elements := by
  rw [all, walk, List.map_cons, inner, map_element_occurrencesIn]

variable {ns : Nodes}

theorem Nodes.elements_addText (t : Text) (line : Nat) : (ns.addText t line).elements = ns.elements := by
  obtain ⟨latest, l⟩ := ns
  unfold addText
  split
  · next heq =>
    simp only at heq
    simp [elements, inOrder, heq, Node.elements]
  · split
    · rfl
    · simp [elements, inOrder, Node.elements]

theorem Nodes.elements_addReference (name : Text) (around : Nat) :
    (ns.addReference name around).elements = ns.elements := by
  simp [elements, addReference, inOrder, Node.elements]

theorem Nodes.elements_addElement (e : Element) : (ns.addElement e).elements = ns.elements ++ e.all := by
  simp [elements, addElement, inOrder, Node.elements]

end Elements

namespace Read

section Attributes

variable {α β : Type} {r : Read α} {f : α → Read β} {s s' : Source}

theorem takes_check (b : Bool) : (check b).Takes fun _ _ w => b ∧ w = [] := by
  intro s a s' hrun
  cases b with
  | false => cases hrun
  | true =>
    cases hrun
    exact ⟨[], .refl s, rfl, rfl⟩

theorem takes_skipBlanks : skipBlanks.Takes fun _ _ w => IsBlank w := by
  intro s _ s' hrun
  obtain ⟨b, hblanks⟩ := run_discard hrun
  obtain ⟨w, hpasses, hblank, -⟩ := takes_blanks s b s' hblanks
  exact ⟨w, hpasses, hblank⟩

theorem takes_name : name.Takes fun _ t w => w = t ∧ IsWrittenName t := by
  intro s t s' hrun
  obtain ⟨t', s₁, _, hpasses, ⟨rfl, hchars⟩, hrun⟩ := (takes_takeWhile _).of_bind hrun
  obtain ⟨_, s₂, _, hchecked, ⟨hhead, rfl⟩, hrun⟩ := (takes_check _).of_bind hrun
  cases hrun
  have hall := hpasses.trans hchecked
  rw [List.append_nil] at hall
  exact ⟨_, hall, rfl, hhead, hchars⟩

theorem written_ofWritten (t : Text) : (QualifiedName.ofWritten t).written = t := by
  unfold QualifiedName.ofWritten
  split
  · next c stem hrest =>
    dsimp only
    split
    · have hparts := List.takeWhile_append_dropWhile (p := (· != ':')) (l := t)
      rwa [hrest] at hparts
    · rfl
  · rfl

theorem takes_qualifiedName : qualifiedName.Takes fun _ n w => w = n.written ∧ IsWrittenName w := by
  intro s n s' hrun
  obtain ⟨t, s₁, _, hpasses, ⟨rfl, hname⟩, hrun⟩ := takes_name.of_bind hrun
  obtain ⟨_, s₂, hstays, hrun⟩ := Stays.of_bind hrun
  cases hrun
  have hall := hpasses.trans hstays
  rw [List.append_nil] at hall
  exact ⟨_, hall, (written_ofWritten _).symm, hname⟩

theorem takes_equals : equals.Takes fun _ _ w => ∃ b b', IsBlank b ∧ IsBlank b' ∧ w = b ++ '=' :: b' := by
  intro s _ s' hrun
  obtain ⟨_, s₁, b, hbefore, hb, hrun⟩ := takes_skipBlanks.of_bind hrun
  obtain ⟨_, s₂, _, hsign, rfl, hrun⟩ := (takes_expect "=").of_bind hrun
  obtain ⟨b', hafter, hb'⟩ := takes_skipBlanks _ _ _ hrun
  exact ⟨b ++ ("=".toList ++ b'), hbefore.trans (hsign.trans hafter), b, b', hb, hb', rfl⟩

theorem takes_quoted : quoted.Takes fun _ _ w => IsQuoted w := by
  have hmark {q : Char} {t : Text} (h : ∀ x y, t = x ++ y → y ≠ [] → ¬[q] <+: y) : q ∉ t := by
    intro hq
    obtain ⟨x, y, rfl⟩ := List.append_of_mem hq
    exact h x (q :: y) rfl (List.cons_ne_nil q y) (List.prefix_append [q] y)
  intro s t s' hrun
  obtain ⟨c, s₁, hstays, hrun⟩ := Stays.of_bind hrun
  split at hrun
  · obtain ⟨_, s₂, _, hopen, rfl, hrun⟩ := (takes_expect "\"").of_bind hrun
    obtain ⟨_, hclose, rfl, hfirst⟩ := takes_takeTo "\"" _ _ _ hrun
    exact ⟨_, hstays.trans (hopen.trans hclose), .double (hmark hfirst)⟩
  · obtain ⟨_, s₂, _, hopen, rfl, hrun⟩ := (takes_expect "'").of_bind hrun
    obtain ⟨_, hclose, rfl, hfirst⟩ := takes_takeTo "'" _ _ _ hrun
    exact ⟨_, hstays.trans (hopen.trans hclose), .single (hmark hfirst)⟩
  · cases hrun

theorem takes_attributeValue (d : Declarations) : (attributeValue d).Takes fun _ _ w => IsQuoted w := by
  intro s v s' hrun
  obtain ⟨t, s₁, w, hpasses, hquoted, hrun⟩ := takes_quoted.of_bind hrun
  obtain ⟨s₂, hstays, hrun⟩ := Stays.of_ite hrun
  split at hrun
  · cases hrun
    have hall := hpasses.trans hstays
    rw [List.append_nil] at hall
    exact ⟨w, hall, hquoted⟩
  · cases hrun

instance (n : QualifiedName) (v : Text) : Stays (inspectAttribute n v) := by
  unfold inspectAttribute
  split <;> infer_instance

theorem takes_attributes (d : Declarations) (fuel : Nat) (given : List (QualifiedName × Text)) :
    (attributes d fuel given).Takes fun _ _ w => HoldsAttributes w := by
  induction fuel generalizing given with
  | zero => exact takes_failure _
  | succ fuel ih =>
    intro s all s' hrun
    obtain ⟨parted, s₁, b, hblanks, ⟨hb, hne⟩, hrun⟩ := takes_blanks.of_bind hrun
    have hend {s₂ : Source} (h : s₁.Passes [] s₂) : s.Passes b s₂ := by
      have hall := hblanks.trans h
      rwa [List.append_nil] at hall
    obtain ⟨filled, s₂, hfilled, hrun⟩ := Stays.of_bind hrun
    split at hrun
    · cases hrun
      exact ⟨b, hend hfilled, .blank hb⟩
    obtain ⟨empty, s₃, hempty, hrun⟩ := Stays.of_bind hrun
    split at hrun
    · cases hrun
      exact ⟨b, hend (hfilled.trans hempty), .blank hb⟩
    obtain ⟨_, s₄, _, hchecked, ⟨hparted, rfl⟩, hrun⟩ := (takes_check parted).of_bind hrun
    obtain ⟨n, s₅, t, hn, ⟨-, ht⟩, hrun⟩ := takes_qualifiedName.of_bind hrun
    obtain ⟨_, s₆, hnew, hrun⟩ := Stays.of_bind hrun
    obtain ⟨_, s₇, _, hsign, ⟨b₁, b₂, hb₁, hb₂, rfl⟩, hrun⟩ := takes_equals.of_bind hrun
    obtain ⟨v, s₈, x, hv, hx, hrun⟩ := (takes_attributeValue d).of_bind hrun
    obtain ⟨_, s₉, hinspected, hrun⟩ := Stays.of_bind hrun
    obtain ⟨w, hrest, hw⟩ := ih _ _ _ _ hrun
    have hbegin := hend (hfilled.trans (hempty.trans hchecked))
    have hall := hbegin.trans (hn.trans (hnew.trans (hsign.trans (hv.trans (hinspected.trans hrest)))))
    refine ⟨_, hall, ?_⟩
    have hlist := HoldsAttributes.attribute hb (hne hparted) ht hb₁ hb₂ hx hw
    simpa using hlist

end Attributes

section Tag

instance (t : Text) : Stays (newIdentifier t) := by
  refine ⟨fun s _ s' hrun => ?_⟩
  obtain ⟨_, _, hget, hrun⟩ := run_bind hrun
  cases hget
  split at hrun
  · exact Stays.takes _ _ _ hrun
  · cases hrun
    exact ⟨[], ⟨rfl, rfl⟩, rfl⟩

instance {α : Type} (l : List α) (f : α → Read PUnit) [∀ a, Stays (f a)] : Stays (l.forM f) := by
  induction l with
  | nil => exact inferInstanceAs (Stays (pure ()))
  | cons a l ih => exact inferInstanceAs (Stays (f a >>= fun _ => l.forM f))

instance (s : Surroundings) (element : QualifiedName) (proper : List (QualifiedName × Text)) :
    Stays (inspectIdentifiers s element proper) := by
  unfold inspectIdentifiers
  infer_instance

theorem stem_suffix_braced (space stem : Text) : stem <:+ braced space stem :=
  ⟨'\x7b' :: space ++ ['\x7d'], by simp [braced]⟩

theorem stem_suffix_expand (scope : Scope) (n : QualifiedName) : n.stem <:+ scope.expand n := by
  obtain ⟨space, stem⟩ := n
  cases space with
  | none => exact List.suffix_rfl
  | some p =>
    dsimp only [Scope.expand]
    split
    · exact stem_suffix_braced _ stem
    · split
      · exact stem_suffix_braced _ stem
      · exact ⟨p ++ [':'], by simp [QualifiedName.written]⟩

theorem stem_suffix_element (scope : Scope) (n : QualifiedName) : n.stem <:+ scope.element n := by
  unfold Scope.element
  split
  · split
    · exact List.suffix_rfl
    · exact stem_suffix_braced _ _
  · exact stem_suffix_expand scope n

theorem takes_tag (s : Surroundings) (n : QualifiedName) (given : List (QualifiedName × Text)) :
    (tag s n given).Takes fun line t w => w = [] ∧ t.1.line = line ∧ n.stem <:+ t.1.name := by
  intro σ t σ' hrun
  obtain ⟨_, σ₁, hknown, hrun⟩ := Stays.of_bind hrun
  obtain ⟨_, σ₂, hidentified, hrun⟩ := Stays.of_bind hrun
  split at hrun
  · cases hrun
  · next attributes hattributes =>
    have hstays := hknown.trans hidentified
    cases hrun
    exact ⟨[], hstays, rfl, hstays.line, stem_suffix_element _ n⟩

end Tag

section Content

/-- The nodes that are read after some others have elements with start tags in the text. -/
def Adds (ns : Nodes) (line : Nat) (ns' : Nodes) (w : Text) : Prop :=
  ∃ es, ns'.elements = ns.elements ++ es ∧ Starts line w es

/-- The text after the first character of an element has start tags of it and the elements inside it. -/
def Begins (line : Nat) (e : Element) (w : Text) : Prop :=
  Starts line ('<' :: w) e.all

variable {fuel : Nat} {s s' : Surroundings} {σ σ' σ'' : Source} {ns ns' : Nodes} {v w : Text}

theorem Adds.after {line : Nat} (hns : ns'.elements = ns.elements) (v : Text)
    (h : Adds ns' (line + v.count '\n') ns'' w) : Adds ns line ns'' (v ++ w) := by
  obtain ⟨es, hes, hstarts⟩ := h
  exact ⟨es, by rw [hes, hns], hstarts.after v⟩

theorem Begins.adds {line : Nat} {e : Element} (h : Begins line e v)
    (hadds : Adds (ns.addElement e) (line + ('<' :: v).count '\n') ns' w) : Adds ns line ns' ('<' :: v ++ w) := by
  obtain ⟨es, hes, hstarts⟩ := hadds
  exact ⟨e.all ++ es, by rw [hes, Nodes.elements_addElement, List.append_assoc], h.append hstarts⟩

instance (fuel : Nat) (s : Surroundings) (name : Text) : Stays (sound fuel s name) := by
  cases fuel with
  | zero => exact ⟨takes_failure _⟩
  | succ fuel =>
    unfold sound
    split
    · infer_instance
    · infer_instance
    · infer_instance
    · -- What the entity stands for is read from its own text, and then the source is put back.
      refine ⟨fun σ _ σ' hrun => ⟨[], ?_, rfl⟩⟩
      obtain ⟨_, _, hget, hrun⟩ := run_bind hrun
      cases hget
      split at hrun
      · cases hrun
        exact .refl σ
      · obtain ⟨_, _, -, hrun⟩ := run_bind hrun
        obtain ⟨_, _, -, hrun⟩ := run_bind hrun
        obtain ⟨_, _, -, hrun⟩ := run_bind hrun
        obtain ⟨_, _, -, hrun⟩ := run_bind hrun
        obtain ⟨after, _, -, hrun⟩ := run_bind hrun
        cases hrun
        exact ⟨rfl, rfl⟩

/-- An element has its start tag, and after that the start tags of what it holds. -/
theorem takes_element (hcontent : ∀ s ns, (content fuel s ns).Takes (Adds ns)) (s : Surroundings) :
    (element (fuel + 1) s).Takes Begins := by
  intro σ e σ' hrun
  unfold element at hrun
  obtain ⟨_, σ₁, h₁, hrun⟩ := Stays.of_bind hrun
  obtain ⟨n, σ₂, _, h₂, ⟨rfl, hn⟩, hrun⟩ := takes_qualifiedName.of_bind hrun
  obtain ⟨given, σ₃, g, h₃, hg, hrun⟩ := (takes_attributes _ _ _).of_bind hrun
  have hpast := h₁.trans (h₂.trans h₃)
  obtain ⟨⟨tag, scope⟩, σ₄, _, h₄, ⟨rfl, hline, hname⟩, hrun⟩ := (takes_tag _ _ _).of_bind hrun
  dsimp only at hrun hline hname
  have hend : tag.line = σ.line + (n.written ++ g).count '\n' := by rw [hline, hpast.line, List.nil_append]
  have hpast := hpast.trans h₄
  obtain ⟨_, σ₅, _, h₅, rfl, hrun⟩ := (takes_accept "/>").of_bind hrun
  split at hrun
  · next hempty =>
    cases hrun
    refine ⟨_, hpast.trans h₅, ?_⟩
    rw [Begins, Element.all_eq, if_pos hempty]
    have hclose : "/>".toList ∈ [">".toList, "/>".toList] := by decide
    have hall := Starts.tag (e := ⟨tag, []⟩) hclose hname hn hg hend (.none _ [])
    simpa using hall
  · next hfilled =>
    obtain ⟨_, σ₆, _, h₆, rfl, hrun⟩ := (takes_expect ">").of_bind hrun
    obtain ⟨ns, σ₇, w, h₇, ⟨es, hes, hstarts⟩, hrun⟩ := (hcontent _ _).of_bind hrun
    obtain ⟨_, σ₈, x, h₈, hrun⟩ := Advances.of_bind hrun
    obtain ⟨_, σ₉, y, h₉, hrun⟩ := Advances.of_bind hrun
    obtain ⟨_, τ₁, h₁₀, hrun⟩ := Stays.of_bind hrun
    obtain ⟨_, τ₂, z, h₁₁, hrun⟩ := Advances.of_bind hrun
    obtain ⟨_, τ₃, z', h₁₂, hrun⟩ := Advances.of_bind hrun
    cases hrun
    have hrest := h₈.trans (h₉.trans (h₁₀.trans (h₁₁.trans h₁₂)))
    refine ⟨_, hpast.trans (h₅.trans (h₆.trans (h₇.trans hrest))), ?_⟩
    have hinside : σ₆.line = tag.line := by rw [h₆.line, h₅.line, if_neg hfilled, h₄.line, hline]; rfl
    rw [hinside] at hstarts
    have hcontent := hstarts.append (.none _ (x ++ (y ++ ([] ++ (z ++ z')))))
    have hclose : ">".toList ∈ [">".toList, "/>".toList] := by decide
    have hall := Starts.tag (e := ⟨tag, ns.inOrder⟩) hclose hname hn hg hend hcontent
    have helements : ns.inOrder.flatMap Node.elements = es := hes
    rw [Begins, Element.all_eq, if_neg hfilled, helements]
    simpa using hall

/-- Content goes on behind a text that adds no element. -/
theorem takes_more (hcontent : ∀ s ns, (content fuel s ns).Takes (Adds ns)) {σ₁ : Source} {ns₁ : Nodes}
    (hu : σ.Passes v σ₁) (hns : ns₁.elements = ns.elements)
    (hrun : (content fuel s ns₁).run σ₁ = some (ns', σ')) : ∃ w, σ.Passes w σ' ∧ Adds ns σ.line ns' w := by
  obtain ⟨w, hw, hadds⟩ := hcontent s ns₁ σ₁ ns' σ' hrun
  rw [hu.line] at hadds
  exact ⟨v ++ w, hu.trans hw, hadds.after hns v⟩

/-- Content goes on behind an element. -/
theorem takes_child (hcontent : ∀ s ns, (content fuel s ns).Takes (Adds ns)) {σ₁ σ₂ : Source} {e : Element}
    (hu : σ.Passes v σ₁) (htag : σ₁.Passes ('<' :: w) σ₂) (hbegins : Begins σ₁.line e w)
    (hrun : (content fuel s (ns.addElement e)).run σ₂ = some (ns', σ')) :
    ∃ w, σ.Passes w σ' ∧ Adds ns σ.line ns' w := by
  obtain ⟨rest, hrest, hadds⟩ := hcontent _ _ _ _ _ hrun
  rw [htag.line] at hadds
  have hall := hbegins.adds hadds
  rw [hu.line] at hall
  exact ⟨_, hu.trans (htag.trans hrest), hall.after rfl _⟩

theorem adds_nothing {σ₁ : Source} (hu : σ.Passes [] σ₁) : ∃ w, σ.Passes w σ₁ ∧ Adds ns σ.line ns w :=
  ⟨[], hu, [], (List.append_nil _).symm, .none _ _⟩

/-- The nodes that content adds have their start tags in it. -/
theorem takes_content (hcontent : ∀ s ns, (content fuel s ns).Takes (Adds ns))
    (helement : ∀ s, (element fuel s).Takes Begins) (s : Surroundings) (ns : Nodes) :
    (content (fuel + 1) s ns).Takes (Adds ns) := by
  intro σ ns' σ' hrun
  unfold content at hrun
  obtain ⟨_, σ₁, h, hrun⟩ := Stays.of_bind hrun
  split at hrun
  · cases hrun
    exact adds_nothing h
  obtain ⟨_, σ₂, h₂, hrun⟩ := Stays.of_bind hrun
  have h := h.trans h₂
  split at hrun
  · cases hrun
    exact adds_nothing h
  obtain ⟨_, σ₃, _, h₃, hrun⟩ := Advances.of_bind hrun
  have h := h.trans h₃
  split at hrun
  · obtain ⟨_, τ, _, hcomment, hrun⟩ := Advances.of_bind hrun
    exact takes_more hcontent (h.trans hcomment) rfl hrun
  obtain ⟨_, σ₄, _, h₄, hrun⟩ := Advances.of_bind hrun
  have h := h.trans h₄
  split at hrun
  · obtain ⟨_, τ, _, hinstruction, hrun⟩ := Advances.of_bind hrun
    exact takes_more hcontent (h.trans hinstruction) rfl hrun
  obtain ⟨_, σ₅, _, h₅, hrun⟩ := Advances.of_bind hrun
  have h := h.trans h₅
  split at hrun
  · obtain ⟨t, τ, _, htext, hrun⟩ := Advances.of_bind hrun
    obtain ⟨_, τ', hget, hrun⟩ := Stays.of_bind hrun
    exact takes_more hcontent (h.trans (htext.trans hget)) (ns.elements_addText _ _) hrun
  obtain ⟨_, σ₆, _, h₆, rfl, hrun⟩ := (takes_accept "<").of_bind hrun
  split at hrun
  · next hopen =>
    obtain ⟨e, τ, y, h₇, hbegins, hrun⟩ := (helement s).of_bind hrun
    rw [if_pos hopen] at h₆
    have hopened : σ₆.line = σ₅.line := h₆.line
    rw [hopened] at hbegins
    exact takes_child hcontent h (h₆.trans h₇) hbegins hrun
  have h := h.trans h₆
  obtain ⟨_, σ₇, h₇, hrun⟩ := Stays.of_bind hrun
  have h := h.trans h₇
  split at hrun
  · obtain ⟨piece, σ₈, _, h₈, hrun⟩ := Advances.of_bind hrun
    have h := h.trans h₈
    split at hrun
    · split at hrun
      · obtain ⟨_, τ, hget, hrun⟩ := Stays.of_bind hrun
        exact takes_more hcontent (h.trans hget) (ns.elements_addText _ _) hrun
      · obtain ⟨_, τ, hsound, hrun⟩ := Stays.of_bind hrun
        exact takes_more hcontent (h.trans hsound) (ns.elements_addReference _ _) hrun
    · obtain ⟨_, τ, hget, hrun⟩ := Stays.of_bind hrun
      exact takes_more hcontent (h.trans hget) (ns.elements_addText _ _) hrun
    · obtain ⟨_, τ, hget, hrun⟩ := Stays.of_bind hrun
      exact takes_more hcontent (h.trans hget) (ns.elements_addText _ _) hrun
  · obtain ⟨_, τ₁, hget, hrun⟩ := Stays.of_bind hrun
    obtain ⟨t, τ₂, _, htext, hrun⟩ := Advances.of_bind hrun
    obtain ⟨_, τ₃, hchecked, hrun⟩ := Stays.of_bind hrun
    exact takes_more hcontent (h.trans (hget.trans (htext.trans hchecked))) (ns.elements_addText _ _) hrun

theorem takes_content_element (fuel : Nat) : (∀ s ns, (content fuel s ns).Takes (Adds ns)) ∧
    ∀ s, (element fuel s).Takes Begins := by
  induction fuel with
  | zero => exact ⟨fun _ _ => takes_failure _, fun _ => takes_failure _⟩
  | succ fuel ih => exact ⟨takes_content ih.1 ih.2, takes_element ih.1⟩

theorem takes_document (fuel : Nat) : (document fuel).Takes fun line e w => Starts line w e.all := by
  intro σ e σ' hrun
  obtain ⟨d, σ₁, u, h₁, hrun⟩ := Advances.of_bind hrun
  obtain ⟨_, σ₂, _, h₂, rfl, hrun⟩ := (takes_expect "<").of_bind hrun
  obtain ⟨root, σ₃, v, h₃, hbegins, hrun⟩ := ((takes_content_element _).2 _).of_bind hrun
  obtain ⟨_, σ₄, w, h₄, hrun⟩ := Advances.of_bind hrun
  obtain ⟨_, σ₅, h₅, hrun⟩ := Stays.of_bind hrun
  obtain ⟨_, σ₆, h₆, hrun⟩ := Stays.of_bind hrun
  obtain ⟨_, σ₇, h₇, hrun⟩ := Stays.of_bind hrun
  obtain ⟨_, σ₈, h₈, hrun⟩ := Stays.of_bind hrun
  cases hrun
  have hrest := h₄.trans (h₅.trans (h₆.trans (h₇.trans h₈)))
  refine ⟨_, h₁.trans (h₂.trans (h₃.trans hrest)), ?_⟩
  have hopened : σ₂.line = σ.line + u.count '\n' := (h₁.trans h₂).line.trans (by simp)
  rw [Begins, hopened] at hbegins
  have hall := (hbegins.append (.none _ w)).after u
  simpa using hall

end Content
end Read

/-- The elements of a document have their start tags in its text, each with its line. -/
theorem Element.starts_of_ofText? {t : Text} {e : Element} (h : Element.ofText? t = some e) : Starts 1 t e.all := by
  unfold ofText? at h
  split at h
  · obtain ⟨⟨root, σ⟩, hrun, h⟩ := Option.bind_eq_some_iff.mp h
    dsimp only at h
    split at h
    · next hend =>
      cases h
      obtain ⟨w, hpasses, hstarts⟩ := Read.takes_document _ _ _ _ hrun
      have hrest := hpasses.rest
      rw [List.isEmpty_iff.mp hend, List.append_nil] at hrest
      have htext : t = w := hrest
      rwa [htext]
    · cases h
  · cases h

end DraftLint.Markup
