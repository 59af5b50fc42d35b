import DraftLint.Proofs.DraftName
import DraftLint.Proofs.Plain.Listing
import DraftLint.Proofs.Text.Pieces

/-!
# Labels in the references

A line gives the labels that stand on it in brackets, and no label reaches over another.  A document lists
the labels on the lines that follow a heading of the references, up to and including the line that ends them.
-/

namespace DraftLint

namespace Citation

open Pattern

/-- The label stands in brackets somewhere in the text. -/
def Mentions (t s : Text) : Prop :=
  ∃ u w, t = u ++ '[' :: s ++ ']' :: w

section Matching

variable {fuel : Nat} {s u v w : Text}

/-- Letters and digits are what a label has to be apart from. -/
def rfcNumber : Pattern :=
  .seq (literal "RFC".toList).ignoreCase
    (.seq (.one CharSet.decimal.ignoreCase) (.many (.one CharSet.decimal.ignoreCase)))

/-- What a label has inside, and the closing bracket. -/
def labelBody : Pattern :=
  .seq (.seq (.one labelChar) (.many (.one labelChar))) (.one (CharSet.only ']').ignoreCase)

theorem label_eq :
    label = .seq (.one (CharSet.only '[').ignoreCase) (.seq (.notAhead rfcNumber) labelBody) :=
  rfl

theorem isSome_run_rfcNumber (u v : Text) (captures : List Capture) :
    (rfcNumber.run fuel ⟨.amid u v, captures⟩ some).isSome = namesRfc v := by
  have hsplit : namesRfc v = (Cursor.sees ("RFC".toList.map fun c => (CharSet.only c).ignoreCase) v &&
      Cursor.sees [CharSet.decimal.ignoreCase] (v.drop 3)) :=
    sees_append ("RFC".toList.map fun c => (CharSet.only c).ignoreCase) [CharSet.decimal.ignoreCase] v
  rw [hsplit, rfcNumber, run, run_row (row_literal_ignoreCase _)]
  cases Cursor.sees ("RFC".toList.map fun c => (CharSet.only c).ignoreCase) v with
  | false => rfl
  | true =>
    rw [if_pos rfl, run, run_row (.single _), Bool.true_and]
    have hlength : ("RFC".toList.map fun c => (CharSet.only c).ignoreCase).length = 3 := rfl
    rw [hlength]
    split_ifs with hdigit
    · rw [hdigit]
      exact isSome_run_many fuel rfl
    · rw [Bool.not_eq_true] at hdigit
      rw [hdigit]
      rfl

theorem namesRfc_append (s w : Text) : namesRfc (s ++ ']' :: w) = namesRfc s := by
  have hsees : ∀ sets : List CharSet, (∀ set ∈ sets, set ']' = false) → ∀ s : Text,
      Cursor.sees sets (s ++ ']' :: w) = Cursor.sees sets s := by
    intro sets hsets s
    induction sets generalizing s with
    | nil => simp [Cursor.sees]
    | cons set sets ih =>
      cases s with
      | nil => simp [Cursor.sees, hsets set (List.mem_cons_self ..)]
      | cons x s =>
        simp only [List.cons_append, Cursor.sees, ih fun set' h => hsets set' (List.mem_cons_of_mem _ h)]
  refine hsees _ ?_ s
  simp only [List.forall_mem_cons]
  exact ⟨by decide, by decide, by decide, by decide, List.forall_mem_nil _⟩

/-- A match of a label reads it with its brackets. -/
theorem exists_of_matchAt_label {m : Match} (h : label.matchAt fuel (.amid u v) = some m) :
    ∃ s w, v = '[' :: s ++ ']' :: w ∧ IsLabel s ∧ m.text = '[' :: s ++ [']'] ∧
      m.stop.pos = u.length + s.length + 2 := by
  obtain ⟨t, hread⟩ := reads_of_matchAt h
  have htext : m.text = t := by
    rw [Match.text, start_of_matchAt h]
    exact hread.between_eq
  obtain ⟨hrest, hpos⟩ := hread.advance
  rw [label_eq, matchAt, run] at h
  obtain ⟨_, r, hopen, h⟩ := Reads.of_run fuel h
  rw [label_eq] at hread
  obtain ⟨_, _, _, rfl, hopen', hread⟩ := hread.of_seq
  obtain ⟨_, body, _, rfl, hahead, hbody⟩ := hread.of_seq
  cases hahead
  obtain ⟨inside, closing, _, rfl, hinside, hclosing⟩ := hbody.of_seq
  obtain ⟨hne, hchars⟩ := Reads.of_atLeastOnce_one hinside
  obtain ⟨c, rfl, hc⟩ := hopen'.of_one
  obtain ⟨d, rfl, hd⟩ := hclosing.of_one
  obtain rfl := Text.eq_of_only_ignoreCase (by decide) hc
  obtain rfl := Text.eq_of_only_ignoreCase (by decide) hd
  have hv : v = '[' :: inside ++ ']' :: m.stop.rest := by simpa [Cursor.amid] using hrest
  refine ⟨inside, m.stop.rest, hv, ⟨hne, hchars, ?_⟩, by simpa using htext, ?_⟩
  · -- After the bracket the number of an RFC was ruled out.
    have hr : r = ⟨.amid (u ++ ['[']) (inside ++ ']' :: m.stop.rest), []⟩ := by
      rw [hv] at hopen
      cases hopen
      simp [Cursor.amid]
    rw [hr, run, run, isSome_run_rfcNumber, namesRfc_append] at h
    split_ifs at h with hrfc
    rwa [Bool.not_eq_true] at hrfc
  · simp only [Cursor.amid, List.length_append, List.length_cons, List.length_nil] at hpos
    omega

/-- A label in brackets is matched. -/
theorem exists_matchAt_label (hs : IsLabel s) (hfuel : ('[' :: s ++ ']' :: w).length ≤ fuel) :
    ∃ m, label.matchAt fuel (.amid u ('[' :: s ++ ']' :: w)) = some m ∧ m.text = '[' :: s ++ [']'] := by
  obtain ⟨c, s', rfl⟩ := List.exists_cons_of_ne_nil hs.ne_nil
  have hmore := Reads.many_one (s := labelChar) (u := s')
    (fun x hx => hs.labelChar x (List.mem_cons_of_mem _ hx)) (c :: '[' :: u.reverse) (']' :: w)
    (u.length + 1 + 1) []
  have hinside := (Reads.one ('[' :: u.reverse) (s' ++ ']' :: w) (u.length + 1) []
    (hs.labelChar c (List.mem_cons_self ..))).seq hmore
  have hread := hinside.seq (Reads.one (s := (CharSet.only ']').ignoreCase) _ w _ [] (by decide))
  have hbody : (labelBody.run fuel ⟨.amid (u ++ ['[']) (c :: s' ++ ']' :: w), []⟩ fun r =>
      some (⟨.amid u ('[' :: (c :: s') ++ ']' :: w), r.cursor, r.captures⟩ : Match)).isSome := by
    have hstart : (⟨⟨'[' :: u.reverse, c :: (s' ++ ']' :: w), u.length + 1⟩, []⟩ : Reach) =
        ⟨.amid (u ++ ['[']) (c :: s' ++ ']' :: w), []⟩ := by
      simp [Cursor.amid]
    rw [hstart] at hread
    refine hread.isSome_run ⟨⟨trivial, _, rfl⟩, trivial⟩ ?_ rfl
    simp only [List.length_append, List.length_cons, Cursor.amid] at hfuel ⊢
    omega
  obtain ⟨m, hm⟩ := Option.isSome_iff_exists.mp hbody
  have hmatch : label.matchAt fuel (.amid u ('[' :: (c :: s') ++ ']' :: w)) = some m := by
    have hopen : Cursor.sees [(CharSet.only '[').ignoreCase] ('[' :: (c :: s') ++ ']' :: w) = true := rfl
    rw [label_eq, matchAt, run, run_row (.single _), hopen, if_pos rfl]
    have hahead : (rfcNumber.run fuel ⟨.amid (u ++ ['[']) (c :: s' ++ ']' :: w), []⟩ some).isSome = false := by
      rw [isSome_run_rfcNumber, namesRfc_append, hs.not_rfc]
    have hrest : ('[' :: (c :: s') ++ ']' :: w).drop 1 = c :: s' ++ ']' :: w := rfl
    have htake : ('[' :: (c :: s') ++ ']' :: w).take 1 = ['['] := rfl
    rw [List.length_singleton, hrest, htake, run, run, hahead, if_neg Bool.false_ne_true]
    exact hm
  refine ⟨m, hmatch, ?_⟩
  obtain ⟨s₁, w₁, heq, hs₁, htext, -⟩ := exists_of_matchAt_label hmatch
  obtain ⟨hinside, -⟩ := Text.eq_of_append_cons_eq (not_mem_bracket hs).2 (not_mem_bracket hs₁).2
    (List.cons.inj heq).2
  rw [htext, hinside]

/-- Exactly the labels that a text mentions are found in it. -/
theorem mem_labelsIn {t v : Text} :
    v ∈ Plain.Items.labelsIn t ↔ ∃ s, v = '[' :: s ++ [']'] ∧ IsLabel s ∧ Mentions t s := by
  constructor
  · intro h
    obtain ⟨m, hm, rfl⟩ := List.mem_map.mp h
    obtain ⟨u, v, rfl, hmatch⟩ := exists_amid_of_mem_scan hm
    obtain ⟨s, w, rfl, hs, htext, -⟩ := exists_of_matchAt_label hmatch
    exact ⟨s, htext, hs, u, w, by rw [List.append_assoc]⟩
  · rintro ⟨s, rfl, hs, u, w, rfl⟩
    rw [List.append_assoc]
    have hfuel : ('[' :: s ++ ']' :: w).length ≤ (u ++ ('[' :: s ++ ']' :: w)).length := by simp
    obtain ⟨m, hm, htext⟩ := exists_matchAt_label (u := u) hs hfuel
    refine List.mem_map.mpr ⟨m, mem_scan_of_matchAt hm ?_, htext⟩
    -- A label that starts before another has its closing bracket in front of it.
    intro x y m' hu hm' hy
    obtain ⟨s', w', heq, hs', -, hstop⟩ := exists_of_matchAt_label hm'
    rw [hstop, hu, List.length_append]
    obtain ⟨c, y, rfl⟩ := List.exists_cons_of_ne_nil hy
    obtain ⟨-, hrest⟩ := List.cons.inj heq
    rcases List.append_eq_append_iff.mp hrest with ⟨z, hz, hw⟩ | ⟨z, hz, hw⟩
    · cases z with
      | nil => cases hw
      | cons d z =>
        obtain rfl := (List.cons.inj hw).1
        exact absurd (by rw [hz]; simp) (not_mem_bracket hs').1
    · cases z with
      | nil => cases hw
      | cons d z =>
        rw [hz]
        simp only [List.length_append, List.length_cons]
        omega

end Matching

end Citation

namespace Plain

open Citation

namespace Scan

/-- The labels listed on the lines so far, of which those in `body` belong to the body. -/
def KeepsLabels (lines body : List (Nat × Text)) (s : Scan) : Prop :=
  Keeps Items.labelsIn lines (FollowsReferences body) (s.items.listedLabels.map Entry.value)

theorem labels_addLine {setting : Setting} {num : Nat} {line stripped next : Text} {items : Items} :
    (items.addLine setting num line stripped next).listedLabels.map Entry.value =
      (if setting.inReferences then Items.labelsIn stripped else []).foldl Items.addText
        (items.listedLabels.map Entry.value) :=
  Listed.labels.values_addLine setting num line stripped next items

variable {n : Nat} {lines : List (Nat × Text)} {s : Scan}

theorem KeepsLabels.readLine (h : KeepsLabels lines (s.bodyLines lines) s)
    (hsorted : Sorted lines (s.bodyLines lines) s) (hb : Text.Below n lines) (hf : Fronted n s)
    (line next : Text) :
    KeepsLabels (lines ++ [(n + 1, line)])
      ((s.readLine (n + 1) line next).bodyLines (lines ++ [(n + 1, line)]))
      (s.readLine (n + 1) line next) := by
  have hplace : ∀ k ≤ n, FollowsReferences (s.bodyLines lines) k ↔
      FollowsReferences ((s.readLine (n + 1) line next).bodyLines (lines ++ [(n + 1, line)])) k :=
    fun k hk => (followsReferences_readLine hf hb (Nat.le_succ_of_le hk)).symm
  have hkept := h.concat line _ hb hplace (hsorted.inReferences_iff hf hb line next)
  have hlabels : (s.readLine (n + 1) line next).items.listedLabels.map Entry.value =
      if Text.isVisible line then
        (if s.setting.inReferences then Items.labelsIn (Text.trim line) else []).foldl Items.addText
          (s.items.listedLabels.map Entry.value)
      else s.items.listedLabels.map Entry.value := by
    rw [items_readLine (n + 1) line next hf.part_ne_header,
      apply_ite (fun items : Items => items.listedLabels.map Entry.value), labels_addLine]
  rwa [← hlabels] at hkept

theorem Reached.keepsLabels {ls : List Text} {s : Scan} (h : Reached ls s) :
    KeepsLabels (Text.numberFrom 1 ls) (s.bodyLines (Text.numberFrom 1 ls)) s :=
  h.overLines (motive := fun lines s => KeepsLabels lines (s.bodyLines lines) s) keeps_nil
    fun h hb ih => ih.readLine h.sorted hb h.fronted

end Scan

namespace Document

/-- The line is read as one of the references: it stands in them or is the one that ends them. -/
def ReadAsReferences (d : Document) (num : Nat) : Prop :=
  d.InReferences num ∨ d.EndsReferences num

instance (d : Document) (num : Nat) : Decidable (d.ReadAsReferences num) :=
  inferInstanceAs (Decidable (_ ∨ _))

/-- The label stands on a line that is read as one of the references. -/
def ListsLabel (d : Document) (s : Text) : Prop :=
  ∃ l ∈ d.lines, Text.isVisible l.2 ∧ Mentions (Text.trim l.2) s ∧ d.ReadAsReferences l.1

theorem keepsLabels_ofText (fileName : Option Text) (t : Text) :
    Keeps Items.labelsIn (ofText fileName t).lines (ofText fileName t).ReadAsReferences
      ((ofText fileName t).scan.items.listedLabels.map Entry.value) := by
  have h := (Scan.Reached.readLines (Text.lines (prepare t))).keepsLabels
  rw [← Scan.bodyLines_closePart (Text.numberedLines (prepare t)).length] at h
  rw [items_ofText]
  exact h.congr (Text.below_numberFrom _) fun num _ =>
    followsReferences_iff (inOrder_bodyLines fileName t) num

/-- The labels listed are those in brackets on the lines of the references, each once. -/
theorem mem_listedLabels_ofText (fileName : Option Text) (t v : Text) :
    v ∈ (ofText fileName t).scan.items.listedLabels.map Entry.value ↔
      ∃ s, v = '[' :: s ++ [']'] ∧ IsLabel s ∧ (ofText fileName t).ListsLabel s := by
  rw [(keepsLabels_ofText fileName t).mem_iff]
  constructor
  · rintro ⟨l, hl, hvisible, hv, hplace⟩
    obtain ⟨s, rfl, hs, hmentions⟩ := mem_labelsIn.mp hv
    exact ⟨s, rfl, hs, l, hl, hvisible, hmentions, hplace⟩
  · rintro ⟨s, rfl, hs, l, hl, hvisible, hmentions, hplace⟩
    exact ⟨l, hl, hvisible, mem_labelsIn.mpr ⟨s, rfl, hs, hmentions⟩, hplace⟩

/-- A label is listed exactly if the document has it in brackets. -/
theorem listsLabel_iff (fileName : Option Text) (t : Text) {s : Text} (hs : IsLabel s) :
    (ofText fileName t).ListsLabel s ↔ '[' :: s ++ [']'] ∈ (ofText fileName t).scan.items.listedLabels.map Entry.value := by
  rw [mem_listedLabels_ofText]
  constructor
  · intro h
    exact ⟨s, rfl, hs, h⟩
  · rintro ⟨s', heq, -, h⟩
    obtain rfl := List.append_cancel_right (List.cons.inj heq).2
    exact h

end Document
end Plain
end DraftLint
