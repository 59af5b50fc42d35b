import DraftLint.Address.Host
import DraftLint.Proofs.Text.LineEnds
import DraftLint.Proofs.Text.SmallLetters
import Mathlib.Data.List.DropRight

/-!
# Names for examples

A name may stand in a document if its last labels are those of a reserved name or an allowed domain.  That is a matter of
whole labels, so that a name that merely looks alike does not pass, and neither the case of letters nor full stops at the
end nor what stands in front makes a difference.
-/

namespace DraftLint

namespace Text

variable {sep : Char} {p : Char → Bool} {s t : Text}

/-- The pieces of one text are the last pieces of another if that is the text, or ends in it with a separator in front. -/
theorem splitOn_suffix_iff : splitOn sep s <:+ splitOn sep t ↔ t = s ∨ sep :: s <:+ t := by
  constructor
  · rintro ⟨front, h⟩
    have hjoin := congrArg (join [sep]) h
    by_cases hfront : front = []
    · rw [hfront, List.nil_append, join_splitOn, join_splitOn] at hjoin
      exact .inl hjoin.symm
    · rw [join_append sep hfront (splitOn_ne_nil sep s), join_splitOn, join_splitOn] at hjoin
      exact .inr ⟨_, hjoin⟩
  · rintro (rfl | ⟨front, rfl⟩)
    · exact List.suffix_refl _
    · rw [splitOn_append_cons]
      exact List.suffix_append _ _

theorem getLast?_splitOn_eq_some_iff (hs : sep ∉ s) : (splitOn sep t).getLast? = some s ↔ t = s ∨ sep :: s <:+ t := by
  rw [← splitOn_suffix_iff, splitOn_of_not_mem hs, List.getLast?_eq_some_iff]
  exact exists_congr fun front => eq_comm

theorem dropRightWhile_map (p : Char → Bool) (f : Char → Char) (t : Text) :
    dropRightWhile p (t.map f) = (dropRightWhile (p ∘ f) t).map f := by
  simp only [dropRightWhile, ← List.map_reverse, List.dropWhile_map]

theorem dropRightWhile_append_replicate {c : Char} (hc : p c) (t : Text) (n : Nat) :
    dropRightWhile p (t ++ List.replicate n c) = dropRightWhile p t := by
  rw [dropRightWhile, List.reverse_append, List.reverse_replicate, List.dropWhile_append_of_pos, dropRightWhile]
  exact fun x hx => List.eq_of_mem_replicate hx ▸ hc

/-- What is left of the last part has the other parts in front of it. -/
theorem dropRightWhile_append (h : dropRightWhile p t ≠ []) (s : Text) :
    dropRightWhile p (s ++ t) = s ++ dropRightWhile p t := by
  have hrest : t.reverse.dropWhile p ≠ [] := fun hnil => h (by rw [dropRightWhile, hnil, List.reverse_nil])
  rw [dropRightWhile, List.reverse_append, List.dropWhile_append, if_neg (by simpa using hrest), List.reverse_append,
    List.reverse_reverse, dropRightWhile]

end Text

namespace Address.Host

/-- The labels of a name in small letters, without the full stops at its end. -/
def labels (name : Text) : List Text :=
  Text.splitOn '.' (Text.dropRightWhile (· == '.') (Text.lower name))

/-- Without the full stops at its end, the text is one of the names or ends in one with a full stop in front. -/
def Ends (t : Text) : Prop :=
  ∃ d ∈ reservedLabels ++ allowedDomains, Text.dropRightWhile (· == '.') t = d.toList ∨
    '.' :: d.toList <:+ Text.dropRightWhile (· == '.') t

variable {name d : Text} {s t : Text}

theorem not_mem_reserved : ∀ r ∈ reservedLabels, '.' ∉ r.toList := by
  decide

/-- The names are in ASCII, and none is empty. -/
theorem ascii_names : ∀ d ∈ reservedLabels ++ allowedDomains, d.toList ≠ [] ∧ ∀ c ∈ d.toList, c.toNat < 0x80 := by
  decide

theorem lastLabel_eq_iff : lastLabel t = d ↔ (Text.splitOn '.' t).getLast? = some d := by
  rw [lastLabel]
  cases hlast : (Text.splitOn '.' t).getLast? with
  | none => exact absurd (List.getLast?_eq_none_iff.mp hlast) (Text.splitOn_ne_nil '.' t)
  | some l => simp

theorem isExample_iff_ends_lower : isExample name ↔ Ends (Text.lower name) := by
  have hreserved : ∀ t, Text.isOneOf (lastLabel t) reservedLabels = true ↔
      ∃ r ∈ reservedLabels, t = r.toList ∨ '.' :: r.toList <:+ t := by
    intro t
    rw [Text.isOneOf, List.any_eq_true]
    refine exists_congr fun r => and_congr_right fun hr => ?_
    rw [beq_iff_eq, lastLabel_eq_iff, Text.getLast?_splitOn_eq_some_iff (not_mem_reserved r hr)]
  have hallowed : ∀ t : Text, (allowedDomains.any fun d => t == d.toList || Text.endsWith ('.' :: d.toList) t) = true ↔
      ∃ d ∈ allowedDomains, t = d.toList ∨ '.' :: d.toList <:+ t := by
    intro t
    simp only [List.any_eq_true, Bool.or_eq_true, beq_iff_eq, Text.endsWith, List.isSuffixOf_iff_suffix]
  rw [isExample, Bool.or_eq_true, hreserved, hallowed, Ends]
  simp only [List.mem_append, or_and_right, exists_or]

/-- As the names are in ASCII, other characters need not be told apart. -/
theorem ends_map_veil : Ends (t.map Text.veil) ↔ Ends t := by
  have hdot : (fun c => c == '.') ∘ Text.veil = fun c => c == '.' := by
    funext c
    rw [Bool.eq_iff_iff, Function.comp_apply, beq_iff_eq, beq_iff_eq, Text.veil_eq_iff (by decide)]
  rw [Ends, Ends, Text.dropRightWhile_map, hdot]
  refine exists_congr fun d => and_congr_right fun hd => ?_
  have hascii := (ascii_names d hd).2
  rw [Text.map_veil_eq_iff hascii, Text.suffix_map_veil_iff (List.forall_mem_cons.mpr ⟨by decide, hascii⟩)]

theorem isExample_iff_ends (name : Text) : isExample name ↔ Ends (Text.smallForms name) := by
  rw [isExample_iff_ends_lower, ← ends_map_veil, Text.map_veil_lower]

theorem ends_append_dots (t : Text) (n : Nat) : Ends (t ++ List.replicate n '.') ↔ Ends t := by
  rw [Ends, Ends, Text.dropRightWhile_append_replicate (p := fun c => c == '.') rfl]

/-- What stands in front of a name, with a full stop between, makes no difference. -/
theorem Ends.below (h : Ends t) (s : Text) : Ends (s ++ '.' :: t) := by
  obtain ⟨d, hd, h⟩ := h
  have hne : Text.dropRightWhile (· == '.') t ≠ [] := by
    intro hnil
    rw [hnil] at h
    rcases h with h | h
    · exact (ascii_names d hd).1 h.symm
    · cases List.suffix_nil.mp h
  have hrest : Text.dropRightWhile (· == '.') (s ++ '.' :: t) = s ++ '.' :: Text.dropRightWhile (· == '.') t := by
    rw [← List.singleton_append, ← List.append_assoc, Text.dropRightWhile_append hne, List.append_assoc]
    rfl
  refine ⟨d, hd, .inr ?_⟩
  rw [hrest]
  rcases h with h | h
  · rw [h]
    exact List.suffix_append s _
  · exact (h.trans (List.suffix_cons '.' _)).trans (List.suffix_append s _)

/-- The labels of a name end in a reserved label or in those of an allowed domain exactly if the name may stand in a
document.  So whether it may does not change with the case of its letters, nor with full stops at its end, and a name
below one that may do so may, too. -/
theorem isExample_iff_labels (name : Text) :
    (isExample name ↔ (∃ r ∈ reservedLabels, (labels name).getLast? = some r.toList) ∨
      ∃ d ∈ allowedDomains, Text.splitOn '.' d.toList <:+ labels name) ∧
    (∀ other : Text, other.flatMap Text.lowerChar = name.flatMap Text.lowerChar → isExample other = isExample name) ∧
    isExample (Text.lower name) = isExample name ∧
    (∀ n, isExample (name ++ List.replicate n '.') = isExample name) ∧
    ∀ label : Text, isExample name → isExample (label ++ '.' :: name) := by
  refine ⟨?_, fun other hforms => ?_, ?_, fun n => ?_, fun label h => ?_⟩
  · rw [isExample_iff_ends_lower, Ends]
    simp only [List.mem_append, or_and_right, exists_or, labels, Text.splitOn_suffix_iff]
    refine or_congr_left (exists_congr fun r => and_congr_right fun hr => ?_)
    rw [Text.getLast?_splitOn_eq_some_iff (not_mem_reserved r hr)]
  · have hsame : Text.smallForms other = Text.smallForms name := by
      rw [Text.smallForms_eq_map, Text.smallForms_eq_map, hforms]
    rw [Bool.eq_iff_iff, isExample_iff_ends, isExample_iff_ends, hsame]
  · rw [Bool.eq_iff_iff, isExample_iff_ends, isExample_iff_ends, Text.smallForms_lower]
  · have hdots : Text.smallForms (List.replicate n '.') = List.replicate n '.' := by
      rw [Text.smallForms_eq_map]
      induction n with
      | zero => rfl
      | succ n ih => rw [List.replicate_succ, List.flatMap_cons, List.map_append, ih]; rfl
    rw [Bool.eq_iff_iff, isExample_iff_ends, isExample_iff_ends, Text.smallForms_append, hdots, ends_append_dots]
  · rw [isExample_iff_ends] at h ⊢
    have hdot : Text.smallForms (label ++ '.' :: name) = Text.smallForms label ++ '.' :: Text.smallForms name := by
      rw [Text.smallForms_append]
      rfl
    rw [hdot]
    exact h.below _

/-- A domain in capitals, a name below it, and a name that merely looks like it. -/
theorem isExample_below : isExample "EXAMPLE.com.".toList ∧ isExample "www.EXAMPLE.com.".toList ∧
    isExample "notexample.com".toList = false := by
  have hname : isExample "EXAMPLE.com.".toList := by decide
  exact ⟨hname, (isExample_iff_labels "EXAMPLE.com.".toList).2.2.2.2 "www".toList hname, by decide⟩

end Address.Host

end DraftLint
