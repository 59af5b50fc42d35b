import DraftLint.Markup.Reader

/-!
# Reading and lines

What a reader takes of its source is a stretch of the text, and the line moves on by the line ends in it.  Readers that
are put together from such readers are such readers.
-/

namespace DraftLint.Markup

/-- Between the two states of the source the text `w` is taken, and its line ends are counted. -/
structure Source.Passes (s : Source) (w : Text) (s' : Source) : Prop where
  rest : s.rest = w ++ s'.rest
  line : s'.line = s.line + w.count '\n'

namespace Source

variable {s s' s'' : Source} {v w : Text}

theorem Passes.refl (s : Source) : s.Passes [] s :=
  ⟨rfl, rfl⟩

theorem Passes.trans (h : s.Passes v s') (h' : s'.Passes w s'') : s.Passes (v ++ w) s'' := by
  refine ⟨?_, ?_⟩
  · rw [h.rest, h'.rest, List.append_assoc]
  · rw [h'.line, h.line, List.count_append, Nat.add_assoc]

end Source

namespace Read

variable {α β : Type} {r r' : Read α} {f : α → Read β} {s s' : Source}

section Takes

/-- From a line on, the reader takes a text that is related to its result. -/
def Takes (G : Nat → α → Text → Prop) (r : Read α) : Prop :=
  ∀ s a s', r.run s = some (a, s') → ∃ w, s.Passes w s' ∧ G s.line a w

variable {G G' : Nat → α → Text → Prop} {H : α → Nat → β → Text → Prop}

theorem run_bind {b : β} (h : (r >>= f).run s = some (b, s')) :
    ∃ a s'', r.run s = some (a, s'') ∧ (f a).run s'' = some (b, s') := by
  rw [StateT.run_bind, Option.bind_eq_bind, Option.bind_eq_some_iff] at h
  obtain ⟨⟨a, s''⟩, ha, hb⟩ := h
  exact ⟨a, s'', ha, hb⟩

theorem run_discard {u : Unit} (h : (discard r).run s = some (u, s')) : ∃ a, r.run s = some (a, s') := by
  have hmap : ((fun _ => ()) <$> r).run s = some (u, s') := h
  rw [map_eq_pure_bind] at hmap
  obtain ⟨a, _, ha, hu⟩ := run_bind hmap
  cases hu
  exact ⟨a, ha⟩

theorem Takes.mono (h : r.Takes G) (hG : ∀ line a w, G line a w → G' line a w) : r.Takes G' := by
  intro s a s' hrun
  obtain ⟨w, hw, ha⟩ := h s a s' hrun
  exact ⟨w, hw, hG _ _ _ ha⟩

theorem Takes.bind (h : r.Takes G) (h' : ∀ a, (f a).Takes (H a)) :
    (r >>= f).Takes fun line b w => ∃ a u v, w = u ++ v ∧ G line a u ∧ H a (line + u.count '\n') b v := by
  intro s b s' hrun
  obtain ⟨a, s'', ha, hb⟩ := run_bind hrun
  obtain ⟨u, hu, hG⟩ := h s a s'' ha
  obtain ⟨v, hv, hH⟩ := h' a s'' b s' hb
  rw [hu.line] at hH
  exact ⟨u ++ v, hu.trans hv, a, u, v, rfl, hG, hH⟩

/-- The first of two readers takes its text, and the second goes on after it. -/
theorem Takes.of_bind {b : β} (h : r.Takes G) (hrun : (r >>= f).run s = some (b, s')) :
    ∃ a s'' w, s.Passes w s'' ∧ G s.line a w ∧ (f a).run s'' = some (b, s') := by
  obtain ⟨a, s'', ha, hb⟩ := run_bind hrun
  obtain ⟨w, hw, hG⟩ := h s a s'' ha
  exact ⟨a, s'', w, hw, hG, hb⟩

theorem takes_pure (a : α) : (pure a : Read α).Takes fun _ b w => b = a ∧ w = [] := by
  intro s b s' hrun
  cases hrun
  exact ⟨[], .refl s, rfl, rfl⟩

theorem takes_failure (G : Nat → α → Text → Prop) : (failure : Read α).Takes G := by
  intro s a s' hrun
  cases hrun

end Takes

section Advances

/-- The reader takes some text. -/
class Advances (r : Read α) : Prop where
  takes : r.Takes fun _ _ _ => True

theorem Takes.advances {G : Nat → α → Text → Prop} (h : r.Takes G) : Advances r :=
  ⟨h.mono fun _ _ _ _ => trivial⟩

instance [Advances r] [∀ a, Advances (f a)] : Advances (r >>= f) :=
  (Advances.takes.bind fun _ => Advances.takes).advances

theorem Advances.bind [Advances r] (h : ∀ a, Advances (f a)) : Advances (r >>= f) :=
  inferInstance

instance (a : α) : Advances (pure a : Read α) :=
  (takes_pure a).advances

instance : Advances (failure : Read α) :=
  ⟨takes_failure _⟩

instance [Advances r] : Advances (discard r) := by
  refine ⟨fun s _ s' hrun => ?_⟩
  obtain ⟨a, ha⟩ := run_discard hrun
  exact Advances.takes s a s' ha

theorem Advances.of_bind [Advances r] {b : β} (hrun : (r >>= f).run s = some (b, s')) :
    ∃ a s'' w, s.Passes w s'' ∧ (f a).run s'' = some (b, s') := by
  obtain ⟨a, s'', w, hpasses, -, hb⟩ := Advances.takes.of_bind hrun
  exact ⟨a, s'', w, hpasses, hb⟩

theorem Advances.ite {p : Prop} [Decidable p] [Advances r] (h : Advances r') : Advances (if p then r else r') := by
  split <;> infer_instance

instance {p : Prop} [Decidable p] [Advances r] [Advances r'] : Advances (if p then r else r') :=
  .ite inferInstance

end Advances

section Stays

/-- The reader takes nothing. -/
class Stays (r : Read α) : Prop where
  takes : r.Takes fun _ _ w => w = []

instance [Stays r] [∀ a, Stays (f a)] : Stays (r >>= f) := by
  refine ⟨(Stays.takes.bind fun _ => Stays.takes).mono ?_⟩
  rintro line b _ ⟨a, u, v, rfl, rfl, rfl⟩
  rfl

instance (a : α) : Stays (pure a : Read α) :=
  ⟨(takes_pure a).mono fun _ _ _ h => h.2⟩

instance : Stays (failure : Read α) :=
  ⟨takes_failure _⟩

instance {p : Prop} [Decidable p] [Stays r] [Stays r'] : Stays (if p then r else r') := by
  split <;> infer_instance

instance : Stays (get : Read Source) := by
  refine ⟨fun s a s' hrun => ⟨[], ?_, rfl⟩⟩
  cases hrun
  exact .refl s

theorem stays_modify {g : Source → Source} (h : ∀ s, (g s).rest = s.rest ∧ (g s).line = s.line) :
    Stays (modify g : Read PUnit) := by
  refine ⟨fun s a s' hrun => ⟨[], ⟨?_, ?_⟩, rfl⟩⟩
  · cases hrun
    exact (h s).1.symm
  · cases hrun
    exact (h s).2

instance : Stays fault :=
  stays_modify fun _ => ⟨rfl, rfl⟩

instance : Stays remark :=
  stays_modify fun _ => ⟨rfl, rfl⟩

instance (b : Bool) : Stays (faultUnless b) := by
  unfold faultUnless
  infer_instance

instance (b : Bool) : Stays (check b) := by
  unfold check
  infer_instance

instance : Stays peek? := by
  unfold peek?
  infer_instance

instance (mark : String) : Stays (sees mark) := by
  unfold sees
  infer_instance

instance : Stays atEnd := by
  unfold atEnd
  infer_instance

/-- A reader that takes nothing goes before one that takes something. -/
theorem Stays.of_bind [Stays r] {b : β} (hrun : (r >>= f).run s = some (b, s')) :
    ∃ a s'', s.Passes [] s'' ∧ (f a).run s'' = some (b, s') := by
  obtain ⟨a, s'', _, hpasses, rfl, hb⟩ := Stays.takes.of_bind hrun
  exact ⟨a, s'', hpasses, hb⟩

/-- One that goes before on a condition only makes no difference to what is taken. -/
theorem Stays.of_ite {p : Prop} [Decidable p] {r : Read PUnit} [Stays r] {f : PUnit → Read β} {b : β}
    (hrun : (if p then r >>= f else f ⟨⟩).run s = some (b, s')) :
    ∃ s'', s.Passes [] s'' ∧ (f ⟨⟩).run s'' = some (b, s') := by
  split at hrun
  · obtain ⟨_, s'', hpasses, hb⟩ := Stays.of_bind hrun
    exact ⟨s'', hpasses, hb⟩
  · exact ⟨s, .refl s, hrun⟩

instance [Stays r] : Advances r :=
  Stays.takes.advances

end Stays

section Source

variable {p : Char → Bool}

theorem takes_take (n : Nat) : (take n).Takes fun _ t w => w = t := by
  intro s t s' hrun
  cases hrun
  exact ⟨s.rest.take n, ⟨(List.take_append_drop n s.rest).symm, rfl⟩, rfl⟩

theorem takes_takeWhile (p : Char → Bool) : (takeWhile p).Takes fun _ t w => w = t ∧ ∀ c ∈ t, p c := by
  intro s t s' hrun
  cases hrun
  exact ⟨s.rest.takeWhile p, ⟨List.takeWhile_append_dropWhile.symm, rfl⟩, rfl,
    List.all_eq_true.mp List.all_takeWhile⟩

/-- The next characters are taken by their number. -/
theorem run_take {t u : Text} (h : s.rest = t ++ u) :
    (take t.length).run s = some (t, { s with rest := u, line := s.line + t.count '\n' }) := by
  have hrun : (take t.length).run s = some (s.rest.take t.length,
    { s with rest := s.rest.drop t.length, line := s.line + (s.rest.take t.length).count '\n' }) := rfl
  rw [hrun, h, List.take_left, List.drop_left]

/-- The mark is taken if it comes next, and otherwise nothing. -/
theorem takes_accept (mark : String) : (accept mark).Takes fun _ b w => w = if b then mark.toList else [] := by
  intro s b s' hrun
  obtain ⟨_, _, hsees, hrun⟩ := run_bind hrun
  cases hsees
  split at hrun
  · next hmark =>
    obtain ⟨rest, hrest⟩ := List.isPrefixOf_iff_prefix.mp hmark
    obtain ⟨_, _, hdiscard, hrun⟩ := run_bind hrun
    obtain ⟨_, htake⟩ := run_discard hdiscard
    rw [← String.length_toList, run_take hrest.symm] at htake
    cases htake
    cases hrun
    exact ⟨mark.toList, ⟨hrest.symm, rfl⟩, rfl⟩
  · cases hrun
    exact ⟨[], .refl s, rfl⟩

instance (n : Nat) : Advances (take n) :=
  (takes_take n).advances

instance : Advances (takeWhile p) :=
  (takes_takeWhile p).advances

instance (mark : String) : Advances (accept mark) :=
  (takes_accept mark).advances

theorem takes_expect (mark : String) : (expect mark).Takes fun _ _ w => w = mark.toList := by
  refine (Takes.bind (H := fun b _ _ w => b = true ∧ w = []) (takes_accept mark) fun b => ?_).mono ?_
  · cases b with
    | false => exact takes_failure _
    | true => exact (takes_pure ()).mono fun _ _ _ h => ⟨rfl, h.2⟩
  · rintro line _ _ ⟨b, u, v, rfl, rfl, rfl, rfl⟩
    simp

instance (mark : String) : Advances (expect mark) :=
  (takes_expect mark).advances

theorem takes_blanks : blanks.Takes fun _ b w => (∀ c ∈ w, isBlank c) ∧ (b = true → w ≠ []) := by
  refine (Takes.bind (takes_takeWhile isBlank) fun t => takes_pure (!t.isEmpty)).mono ?_
  rintro line _ _ ⟨t, u, v, rfl, ⟨rfl, hblank⟩, rfl, rfl⟩
  rw [List.append_nil]
  exact ⟨hblank, fun h => by simpa using h⟩

theorem of_splitAt? {m t a b : Text} (h : splitAt? m t = some (a, b)) :
    t = a ++ (m ++ b) ∧ ∀ x y, a = x ++ y → y ≠ [] → ¬m <+: y := by
  induction t generalizing a with
  | nil => cases h
  | cons c t ih =>
    rw [splitAt?] at h
    split at h
    · next hmark =>
      obtain ⟨rest, hrest⟩ := List.isPrefixOf_iff_prefix.mp hmark
      rw [← hrest, List.drop_left] at h
      cases h
      exact ⟨hrest.symm, fun x y ha hy => absurd (List.append_eq_nil_iff.mp ha.symm).2 hy⟩
    · next hmark =>
      rw [Option.map_eq_some_iff] at h
      obtain ⟨⟨a', b'⟩, ht, heq⟩ := h
      cases heq
      obtain ⟨rfl, hfirst⟩ := ih ht
      refine ⟨rfl, fun x y ha hy hpre => ?_⟩
      rcases List.cons_eq_append_iff.mp ha with ⟨-, rfl⟩ | ⟨x', -, hx⟩
      · exact hmark (List.isPrefixOf_iff_prefix.mpr (hpre.trans (List.prefix_append (c :: a') _)))
      · exact hfirst x' y hx hy hpre

/-- What is taken up to a mark does not hold the mark. -/
theorem takes_takeTo (mark : String) : (takeTo mark).Takes fun _ t w =>
    w = t ++ mark.toList ∧ ∀ x y, t = x ++ y → y ≠ [] → ¬mark.toList <+: y := by
  intro s t s' hrun
  obtain ⟨_, _, hget, hrun⟩ := run_bind hrun
  cases hget
  split at hrun
  · cases hrun
  · next t' b hsplit =>
    obtain ⟨hrest, hfirst⟩ := of_splitAt? hsplit
    obtain ⟨_, _, htake, hrun⟩ := run_bind hrun
    obtain ⟨_, _, hdiscard, hrun⟩ := run_bind hrun
    obtain ⟨_, hmark⟩ := run_discard hdiscard
    rw [run_take hrest] at htake
    cases htake
    rw [← String.length_toList, run_take rfl] at hmark
    cases hmark
    cases hrun
    refine ⟨_ ++ mark.toList, ⟨?_, ?_⟩, rfl, hfirst⟩
    · rw [List.append_assoc]
      exact hrest
    · rw [List.count_append]
      exact Nat.add_assoc ..

instance : Advances blanks :=
  takes_blanks.advances

instance : Advances skipBlanks := by
  unfold skipBlanks
  infer_instance

instance : Advances someBlanks := by
  unfold someBlanks
  infer_instance

instance (mark : String) : Advances (takeTo mark) :=
  (takes_takeTo mark).advances

instance : Advances quoted := by
  unfold quoted
  refine .bind fun c => ?_
  split <;> infer_instance

instance : Advances comment := by
  unfold comment
  infer_instance

end Source

section Reference

variable {p : Char → Bool} {t rest : Text} {piece : Piece}

/-- What is read up to a semicolon holds no line end if its characters are none. -/
theorem not_mem_of_dropWhile (hp : p '\n' = false) (h : t.dropWhile p = ';' :: rest) :
    ∃ w, t = w ++ rest ∧ '\n' ∉ w := by
  refine ⟨t.takeWhile p ++ [';'], ?_, fun hmem => ?_⟩
  · rw [List.append_assoc, List.singleton_append, ← h, List.takeWhile_append_dropWhile]
  · rcases List.mem_append.mp hmem with hrun | hlast
    · rw [List.all_eq_true.mp List.all_takeWhile _ hrun] at hp
      cases hp
    · exact absurd (List.mem_singleton.mp hlast) (by decide)

theorem of_numbered? {base : Nat} (hp : p '\n' = false) (h : Piece.numbered? base p t = some (piece, rest)) :
    ∃ w, t = w ++ rest ∧ '\n' ∉ w := by
  unfold Piece.numbered? at h
  dsimp only at h
  split at h
  · next _ hrest =>
    split at h
    · cases h
      exact not_mem_of_dropWhile hp hrest
    · cases h
  · cases h

/-- A reference stands on one line. -/
theorem of_reference? (h : Piece.reference? t = some (piece, rest)) : ∃ w, t = w ++ rest ∧ '\n' ∉ w := by
  unfold Piece.reference? at h
  split at h
  · obtain ⟨w, rfl, hw⟩ := of_numbered? (by decide) h
    exact ⟨'#' :: 'x' :: w, rfl, by simpa using hw⟩
  · obtain ⟨w, rfl, hw⟩ := of_numbered? (by decide) h
    exact ⟨'#' :: w, rfl, by simpa using hw⟩
  · dsimp only at h
    split at h
    · next _ hrest =>
      split at h
      · cases h
        exact not_mem_of_dropWhile (by decide) hrest
      · cases h
    · cases h

instance : Advances reference := by
  refine .bind fun _ => ⟨fun s piece s' hrun => ?_⟩
  obtain ⟨_, _, hget, hrun⟩ := run_bind hrun
  cases hget
  split at hrun
  · cases hrun
  · next piece' rest hreference =>
    obtain ⟨w, hrest, hw⟩ := of_reference? hreference
    cases hrun
    refine ⟨w, ⟨hrest, ?_⟩, trivial⟩
    rw [List.count_eq_zero.mpr hw]
    rfl

end Reference

section Prolog

-- The readers of declarations are long chains, which count with their length.
set_option synthInstance.maxSize 1024

instance : Advances name := by
  unfold name
  infer_instance

instance : Advances plainName := by
  unfold plainName
  infer_instance

instance : Advances nameToken := by
  unfold nameToken
  infer_instance

instance (target : Text) : Advances (inspectTarget target) := by
  unfold inspectTarget
  infer_instance

instance : Advances instruction := by
  unfold instruction
  infer_instance

instance (fuel : Nat) : Advances (miscellany fuel) := by
  induction fuel with
  | zero => exact inferInstanceAs (Advances failure)
  | succ fuel ih =>
    unfold miscellany
    infer_instance

instance : Advances equals := by
  unfold equals
  infer_instance

instance : Advances encodingName? := by
  unfold encodingName?
  infer_instance

instance : Advances standalone := by
  unfold standalone
  infer_instance

instance : Advances firstLineRest := by
  unfold firstLineRest
  refine .bind fun _ => .bind fun _ => .bind fun _ => .bind fun _ => .bind fun _ => .bind fun _ => .bind fun short => ?_
  dsimp only
  infer_instance

instance : Advances firstLine := by
  unfold firstLine
  refine .bind fun s => ?_
  split <;> infer_instance

instance : Advances publicLiteral := by
  unfold publicLiteral
  infer_instance

instance (loose : Bool) : Advances (place? loose) := by
  unfold place?
  have (parted : Bool) (c : Option Char) : Advances (match c with
    | some '"' => check parted >>= fun _ => quoted >>= fun t => pure (some t)
    | some '\'' => check parted >>= fun _ => quoted >>= fun t => pure (some t)
    | _ => check loose >>= fun _ => pure (some []) : Read (Option Text)) := by
    split <;> infer_instance
  infer_instance

instance : Advances replacement := by
  unfold replacement
  refine .bind fun t => .bind fun _ => ?_
  split <;> infer_instance

instance (parameter : Bool) : Advances (entityMeaning parameter) := by
  unfold entityMeaning
  refine .bind fun place => ?_
  cases place <;> infer_instance

instance (d : Declarations) : Advances (entityDeclaration d) := by
  unfold entityDeclaration
  dsimp only
  infer_instance

instance : Advances repetition := by
  unfold repetition
  refine .bind fun c => ?_
  cases c <;> infer_instance

theorem advances_group (fuel : Nat) : Advances (particle fuel) ∧ ∀ sign, Advances (group fuel sign) := by
  induction fuel with
  | zero => exact ⟨inferInstanceAs (Advances failure), fun _ => inferInstanceAs (Advances failure)⟩
  | succ fuel ih =>
    obtain ⟨hparticle, hgroup⟩ := ih
    refine ⟨?_, fun sign => ?_⟩
    · unfold particle
      dsimp only
      infer_instance
    · unfold group
      dsimp only
      infer_instance

instance (fuel : Nat) (sign : Option String) : Advances (group fuel sign) :=
  (advances_group fuel).2 sign

instance (fuel : Nat) : Advances (mixedNames fuel) := by
  induction fuel with
  | zero => exact inferInstanceAs (Advances failure)
  | succ fuel ih =>
    unfold mixedNames
    infer_instance

instance (fuel : Nat) : Advances (contentModel fuel) := by
  unfold contentModel
  infer_instance

instance (fuel : Nat) : Advances (elementDeclaration fuel) := by
  unfold elementDeclaration
  infer_instance

instance (token : Read Text) [Advances token] (fuel : Nat) (before : List Text) :
    Advances (choices token fuel before) := by
  induction fuel generalizing before with
  | zero => exact inferInstanceAs (Advances failure)
  | succ fuel ih =>
    unfold choices
    infer_instance

instance (fuel : Nat) : Advances (attributeKind fuel) := by
  unfold attributeKind
  infer_instance

instance (d : Declarations) : Advances (attributeValue d) := by
  unfold attributeValue
  have (t : Text) : Advances (match d.value? t with
    | some v => pure v
    | none => failure : Read Text) := by
    split <;> infer_instance
  dsimp only
  infer_instance

instance (d : Declarations) : Advances (attributeDefault d) := by
  unfold attributeDefault
  dsimp only
  infer_instance

instance (element : Text) (fuel : Nat) (d : Declarations) : Advances (attributeRules element fuel d) := by
  induction fuel generalizing d with
  | zero => exact inferInstanceAs (Advances failure)
  | succ fuel ih =>
    unfold attributeRules
    infer_instance

instance : Advances notationDeclaration := by
  unfold notationDeclaration
  infer_instance

instance (fuel : Nat) (d : Declarations) : Advances (declarations fuel d) := by
  induction fuel generalizing d with
  | zero => exact inferInstanceAs (Advances failure)
  | succ fuel ih =>
    unfold declarations
    refine .bind fun _ => .bind fun _ => .ite <| .bind fun _ => .ite <| .bind fun _ => .ite <| .bind fun _ => .ite <|
      .bind fun _ => .ite <| .bind fun _ => .ite <| .bind fun _ => .ite <| .bind fun _ => .ite <| .bind fun _ =>
      .bind fun n => .bind fun _ => ?_
    dsimp only
    split
    · -- The declarations of a parameter are read from its own text, and then the source is put back.
      refine ⟨fun s d' s' hrun => ?_⟩
      obtain ⟨_, _, hget, hrun⟩ := run_bind hrun
      cases hget
      obtain ⟨_, s₁, -, hrun⟩ := run_bind hrun
      obtain ⟨d₂, s₂, -, hrun⟩ := run_bind hrun
      obtain ⟨_, s₃, -, hrun⟩ := run_bind hrun
      obtain ⟨_, s₄, -, hrun⟩ := run_bind hrun
      obtain ⟨_, s₅, -, hrun⟩ := run_bind hrun
      obtain ⟨_, s₆, hset, hrun⟩ := run_bind hrun
      cases hset
      obtain ⟨w, hw, -⟩ := (ih d₂).takes _ _ _ hrun
      exact ⟨w, ⟨hw.rest, hw.line⟩, trivial⟩
    · infer_instance
    · infer_instance

instance (fuel : Nat) (alone : Bool) : Advances (documentType fuel alone) := by
  unfold documentType
  refine .bind fun _ => .bind fun _ => .bind fun _ => .bind fun external => ?_
  dsimp only
  infer_instance

instance (fuel : Nat) : Advances (prolog fuel) := by
  unfold prolog
  infer_instance

end Prolog
end Read
end DraftLint.Markup
