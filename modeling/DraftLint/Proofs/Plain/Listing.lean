import DraftLint.Proofs.Plain.Run
import Mathlib.Data.List.Induction

/-!
# References by where they stand

The numbers of RFCs are looked for before a line has its effect on the parts.  So a number is listed if it
occurs after a heading of the references, up to and including the heading that ends them, and it is
mentioned if it occurs on any other line.
-/

namespace DraftLint.Plain

namespace Items

section Adding

variable {v : Text} {vs ts : List Text}

theorem mem_addText {t : Text} : v ∈ addText ts t ↔ v ∈ ts ∨ v = t := by
  unfold addText
  split_ifs with h
  · constructor
    · exact Or.inl
    · rintro (hv | rfl)
      · exact hv
      · simpa using h
  · simp

theorem nodup_addText {t : Text} (h : ts.Nodup) : (addText ts t).Nodup := by
  unfold addText
  split_ifs with ht
  · exact h
  · rw [List.nodup_append]
    refine ⟨h, by simp, ?_⟩
    intro a ha b hb
    rintro rfl
    rw [List.mem_singleton.mp hb] at ha
    exact ht (by simpa using ha)

theorem mem_foldl_addText : v ∈ vs.foldl addText ts ↔ v ∈ ts ∨ v ∈ vs := by
  induction vs generalizing ts with
  | nil => simp
  | cons t vs ih =>
    rw [List.foldl_cons, ih, mem_addText, List.mem_cons, or_assoc]

theorem nodup_foldl_addText (h : ts.Nodup) : (vs.foldl addText ts).Nodup := by
  induction vs generalizing ts with
  | nil => exact h
  | cons t vs ih => exact ih (nodup_addText h)

/-- Entries are told apart by their values only. -/
theorem map_value_addEntry (es : List Entry) (e : Entry) :
    (addEntry es e).map Entry.value = addText (es.map Entry.value) e.value := by
  have h : es.any (·.value == e.value) = (es.map Entry.value).contains e.value := by
    rw [Bool.eq_iff_iff]
    simp
  unfold addEntry addText
  rw [h]
  split_ifs <;> simp

theorem map_value_foldl_addEntry (kind : Option ReferenceKind) (es : List Entry) :
    (vs.foldl (fun es v => addEntry es ⟨v, kind⟩) es).map Entry.value =
      vs.foldl addText (es.map Entry.value) := by
  induction vs generalizing es with
  | nil => rfl
  | cons v vs ih => rw [List.foldl_cons, ih, map_value_addEntry, List.foldl_cons]

end Adding

end Items

/-- What the references list: RFCs by their numbers, and other documents by their labels. -/
inductive Listed where
  | rfcs
  | labels

namespace Listed

/-- What of this sort is found on a line. -/
def find : Listed → Text → List Text
  | rfcs => Items.rfcsIn
  | labels => Items.labelsIn

/-- The entries of this sort. -/
def entries : Listed → Items → List Entry
  | rfcs => Items.listedRfcs
  | labels => Items.listedLabels

/-- A line adds entries of the kind that holds on it, if it stands in the references. -/
theorem entries_addLine (c : Listed) (setting : Setting) (num : Nat) (line stripped next : Text) (items : Items) :
    c.entries (items.addLine setting num line stripped next) =
      (if setting.inReferences then c.find stripped else []).foldl
        (fun es v => Items.addEntry es ⟨v, setting.kind⟩) (c.entries items) := by
  have hline : c.entries (items.addLine setting num line stripped next) =
      c.entries (items.addReferences setting stripped) := by
    cases c <;> rfl
  rw [hline, Items.addReferences]
  split_ifs <;> cases c <;> rfl

theorem values_addLine (c : Listed) (setting : Setting) (num : Nat) (line stripped next : Text) (items : Items) :
    (c.entries (items.addLine setting num line stripped next)).map Entry.value =
      (if setting.inReferences then c.find stripped else []).foldl Items.addText
        ((c.entries items).map Entry.value) := by
  rw [entries_addLine, Items.map_value_foldl_addEntry]

end Listed

namespace Items

section Line

variable {setting : Setting} {num : Nat} {line stripped next : Text} {items : Items}

theorem listed_addLine :
    (items.addLine setting num line stripped next).listedRfcs.map Entry.value =
      (if setting.inReferences then rfcsIn stripped else []).foldl addText
        (items.listedRfcs.map Entry.value) :=
  Listed.rfcs.values_addLine setting num line stripped next items

theorem mentioned_addLine :
    (items.addLine setting num line stripped next).mentionedRfcs =
      (if setting.inReferences then [] else rfcsIn stripped).foldl addText items.mentionedRfcs := by
  change (items.addReferences setting stripped).mentionedRfcs = _
  unfold addReferences
  split_ifs <;> rfl

end Line

end Items

/-- The part that the last dividing line of these opens. -/
def lastOpened (body : List (Nat × Text)) : Option Part :=
  (body.filter fun l => Heading.divides (Text.trim l.2)).getLast?.bind fun l =>
    Heading.opened? (Text.trim l.2)

theorem lastOpened_concat (body : List (Nat × Text)) (l : Nat × Text) :
    lastOpened (body ++ [l]) =
      if Heading.divides (Text.trim l.2) then Heading.opened? (Text.trim l.2) else lastOpened body := by
  unfold lastOpened
  rw [List.filter_append]
  by_cases h : Heading.divides (Text.trim l.2) = true <;> simp [h]

/-- The lines in front of a line. -/
def linesBefore (num : Nat) (body : List (Nat × Text)) : List (Nat × Text) :=
  body.filter fun l => l.1 < num

theorem mem_linesBefore {num : Nat} {body : List (Nat × Text)} {l : Nat × Text} :
    l ∈ linesBefore num body ↔ l ∈ body ∧ l.1 < num := by
  simp [linesBefore]

theorem linesBefore_of_lt {n num : Nat} {body : List (Nat × Text)} (h : Text.Below n body)
    (hn : n < num) : linesBefore num body = body := by
  unfold linesBefore
  rw [List.filter_eq_self]
  intro l hl
  have hle := h l hl
  simp only [decide_eq_true_eq]
  omega

theorem linesBefore_concat {n num : Nat} (body : List (Nat × Text)) (line : Text) (h : num ≤ n + 1) :
    linesBefore num (body ++ [(n + 1, line)]) = linesBefore num body := by
  simp [linesBefore, h]

/-- The line comes after the references, with no dividing line between them. -/
def FollowsReferences (body : List (Nat × Text)) (num : Nat) : Prop :=
  lastOpened (linesBefore num body) = some .references

/-- The text is found on one of these lines, at such a place. -/
def FoundWhere (find : Text → List Text) (lines : List (Nat × Text)) (place : Nat → Prop) (v : Text) : Prop :=
  ∃ l ∈ lines, Text.isVisible l.2 ∧ v ∈ find (Text.trim l.2) ∧ place l.1

/-- The list holds what is found on these lines, at such places, each once. -/
structure Keeps (find : Text → List Text) (lines : List (Nat × Text)) (place : Nat → Prop) (vs : List Text) :
    Prop where
  mem_iff : ∀ v, v ∈ vs ↔ FoundWhere find lines place v
  nodup : vs.Nodup

section Found

variable {find : Text → List Text} {n : Nat} {lines : List (Nat × Text)} {place place' : Nat → Prop} {v : Text}

theorem foundWhere_concat (l : Nat × Text) :
    FoundWhere find (lines ++ [l]) place v ↔
      FoundWhere find lines place v ∨ Text.isVisible l.2 ∧ v ∈ find (Text.trim l.2) ∧ place l.1 := by
  unfold FoundWhere
  constructor
  · rintro ⟨k, hk, hc⟩
    rcases List.mem_append.mp hk with hk | hk
    · exact Or.inl ⟨k, hk, hc⟩
    · rw [List.mem_singleton.mp hk] at hc
      exact Or.inr hc
  · rintro (⟨k, hk, hc⟩ | hc)
    · exact ⟨k, List.mem_append_left _ hk, hc⟩
    · exact ⟨l, by simp, hc⟩

theorem foundWhere_congr (hb : Text.Below n lines) (h : ∀ k ≤ n, place k ↔ place' k) :
    FoundWhere find lines place v ↔ FoundWhere find lines place' v := by
  constructor
  · rintro ⟨l, hl, hv, hm, hp⟩
    exact ⟨l, hl, hv, hm, (h l.1 (hb l hl)).mp hp⟩
  · rintro ⟨l, hl, hv, hm, hp⟩
    exact ⟨l, hl, hv, hm, (h l.1 (hb l hl)).mpr hp⟩

theorem keeps_nil : Keeps find [] place [] :=
  ⟨fun v => by simp [FoundWhere], List.nodup_nil⟩

theorem Keeps.congr {vs : List Text} (h : Keeps find lines place vs) (hb : Text.Below n lines)
    (hplace : ∀ k ≤ n, place k ↔ place' k) : Keeps find lines place' vs :=
  ⟨fun v => (h.mem_iff v).trans (foundWhere_congr hb hplace), h.nodup⟩

/-- What is found on the next line is added if the line stands at such a place. -/
theorem Keeps.concat {vs : List Text} (h : Keeps find lines place vs) (line : Text) (here : Bool)
    (hb : Text.Below n lines) (hplace : ∀ k ≤ n, place k ↔ place' k) (hhere : here = true ↔ place' (n + 1)) :
    Keeps find (lines ++ [(n + 1, line)]) place'
      (if Text.isVisible line then (if here then find (Text.trim line) else []).foldl Items.addText vs
        else vs) := by
  have hbefore := h.congr hb hplace
  refine ⟨fun v => ?_, ?_⟩
  · rw [foundWhere_concat, ← hbefore.mem_iff, ← hhere]
    split_ifs with hl hc
    · simp [Items.mem_foldl_addText, hl, hc]
    · simp [hc]
    · simp [hl]
  · split_ifs
    · exact Items.nodup_foldl_addText h.nodup
    · exact h.nodup
    · exact h.nodup

end Found

/-- The number is referred to on one of these lines, at such a place. -/
def CitedWhere (lines : List (Nat × Text)) (place : Nat → Prop) (v : Text) : Prop :=
  ∃ l ∈ lines, Text.isVisible l.2 ∧ v ∈ Items.rfcsIn (Text.trim l.2) ∧ place l.1

section Cited

variable {n : Nat} {lines : List (Nat × Text)} {place place' : Nat → Prop} {v : Text}

theorem citedWhere_congr (hb : Text.Below n lines) (h : ∀ k ≤ n, place k ↔ place' k) :
    CitedWhere lines place v ↔ CitedWhere lines place' v :=
  foundWhere_congr hb h

theorem CitedWhere.mono (h : CitedWhere lines place v) (hp : ∀ k, place k → place' k) :
    CitedWhere lines place' v := by
  obtain ⟨l, hl, hv, hm, hk⟩ := h
  exact ⟨l, hl, hv, hm, hp l.1 hk⟩

theorem citedWhere_or :
    CitedWhere lines (fun num => place num ∨ place' num) v ↔
      CitedWhere lines place v ∨ CitedWhere lines place' v := by
  constructor
  · rintro ⟨l, hl, hv, hm, hk | hk⟩
    · exact Or.inl ⟨l, hl, hv, hm, hk⟩
    · exact Or.inr ⟨l, hl, hv, hm, hk⟩
  · rintro (h | h)
    · exact h.mono fun k => Or.inl
    · exact h.mono fun k => Or.inr

end Cited

namespace Scan

/-- The numbers found on the lines so far, of which those in `body` belong to the body. -/
structure Sorted (lines body : List (Nat × Text)) (s : Scan) : Prop where
  part_iff : s.part = some .references ↔ lastOpened body = some .references
  mem_listed : ∀ v, v ∈ s.items.listedRfcs.map Entry.value ↔
    CitedWhere lines (FollowsReferences body) v
  mem_mentioned : ∀ v, v ∈ s.items.mentionedRfcs ↔
    CitedWhere lines (fun num => ¬FollowsReferences body num) v
  listed_nodup : (s.items.listedRfcs.map Entry.value).Nodup
  mentioned_nodup : s.items.mentionedRfcs.Nodup

theorem sorted_initial : Sorted [] [] initial where
  part_iff := by simp [initial, lastOpened]
  mem_listed := by simp [initial, Items.empty, CitedWhere]
  mem_mentioned := by simp [initial, Items.empty, CitedWhere]
  listed_nodup := List.nodup_nil
  mentioned_nodup := List.nodup_nil

section Steps

variable {n : Nat} {lines body : List (Nat × Text)} {line next : Text} {s : Scan}

/-- A visible line is noted wherever it stands, and nothing is noted of a hidden one. -/
theorem noted_readLine (num : Nat) (line next : Text) (h : s.part ≠ some .header) :
    ((s.readLine num line next).items =
      if Text.isVisible line then s.items.addLine s.setting num line (Text.trim line) next else s.items) ∧
    (s.readLine num line next).inCode =
      if Text.isVisible line then Items.codeAfter s.inCode (Text.trim line) else s.inCode := by
  have hr := reads_readLine num line next s
  generalize s.readLine num line next = s' at hr ⊢
  cases hr with
  | hidden hl count => simp [hl]
  | body hl hc hn =>
    rw [if_pos hl, if_pos hl]
    have hw := withoutParts_readBody (s := s.note num line (Text.trim line) next) num line (Text.trim line) h
    exact ⟨congrArg Scan.items hw, congrArg Scan.inCode hw⟩
  | first hl hf => rw [if_pos hl, if_pos hl]; exact ⟨rfl, rfl⟩
  | title hl hf hc hn => rw [if_pos hl, if_pos hl]; exact ⟨rfl, rfl⟩
  | front hl hf hc hn => rw [if_pos hl, if_pos hl]; exact ⟨rfl, rfl⟩
  | slug hl hc ht hn => rw [if_pos hl, if_pos hl]; exact ⟨rfl, rfl⟩

theorem items_readLine (num : Nat) (line next : Text) (h : s.part ≠ some .header) :
    (s.readLine num line next).items =
      if Text.isVisible line then s.items.addLine s.setting num line (Text.trim line) next else s.items :=
  (noted_readLine num line next h).1

theorem inCode_readLine (num : Nat) (line next : Text) (h : s.part ≠ some .header) :
    (s.readLine num line next).inCode =
      if Text.isVisible line then Items.codeAfter s.inCode (Text.trim line) else s.inCode :=
  (noted_readLine num line next h).2

theorem below_bodyLines (hb : Text.Below n lines) : Text.Below n (s.bodyLines lines) := by
  intro l hl
  exact hb l (mem_bodyLines.mp hl).1

/-- A further line of the body says nothing about the lines up to it. -/
theorem linesBefore_readLine (hf : Fronted n s) (hb : Text.Below n lines) {k : Nat} (hk : k ≤ n + 1) :
    linesBefore k ((s.readLine (n + 1) line next).bodyLines (lines ++ [(n + 1, line)])) =
      linesBefore k (s.bodyLines lines) := by
  cases moves_readLine hf hb line next with
  | body hl hs hlines => rw [hlines, linesBefore_concat _ _ hk]
  | rest hsame hlines hnone => rw [hlines]

theorem followsReferences_readLine (hf : Fronted n s) (hb : Text.Below n lines) {k : Nat}
    (hk : k ≤ n + 1) :
    FollowsReferences ((s.readLine (n + 1) line next).bodyLines (lines ++ [(n + 1, line)])) k ↔
      FollowsReferences (s.bodyLines lines) k := by
  rw [FollowsReferences, linesBefore_readLine hf hb hk, FollowsReferences]

theorem Sorted.part_readLine (h : Sorted lines (s.bodyLines lines) s) (hf : Fronted n s)
    (hb : Text.Below n lines) :
    (s.readLine (n + 1) line next).part = some .references ↔
      lastOpened ((s.readLine (n + 1) line next).bodyLines (lines ++ [(n + 1, line)])) =
        some .references := by
  cases moves_readLine hf hb line next with
  | body hl hs hlines =>
    rw [hlines, hs, lastOpened_concat, part_readBody]
    split_ifs with hd ha
    · exact Iff.rfl
    · have hp : s.part = some .abstract := by
        simp only [leavesAbstract, Bool.and_eq_true, beq_iff_eq] at ha
        exact ha.1.1
      rw [← h.part_iff, hp]
      simp
    · exact h.part_iff
  | rest hsame hlines hnone =>
    rw [hlines, hsame.part]
    exact h.part_iff

/-- The next line is taken for one of the references exactly if it follows their heading. -/
theorem Sorted.inReferences_iff (h : Sorted lines (s.bodyLines lines) s) (hf : Fronted n s)
    (hb : Text.Below n lines) (line next : Text) :
    s.setting.inReferences = true ↔
      FollowsReferences ((s.readLine (n + 1) line next).bodyLines (lines ++ [(n + 1, line)])) (n + 1) := by
  rw [followsReferences_readLine hf hb (Nat.le_refl _), FollowsReferences,
    linesBefore_of_lt (below_bodyLines hb) (Nat.lt_succ_self n), ← h.part_iff]
  simp [setting]

theorem Sorted.readLine (h : Sorted lines (s.bodyLines lines) s) (hb : Text.Below n lines)
    (hf : Fronted n s) (line next : Text) :
    Sorted (lines ++ [(n + 1, line)])
      ((s.readLine (n + 1) line next).bodyLines (lines ++ [(n + 1, line)]))
      (s.readLine (n + 1) line next) := by
  have hitems := items_readLine (n + 1) line next hf.part_ne_header
  have hfollows : ∀ k ≤ n + 1,
      FollowsReferences ((s.readLine (n + 1) line next).bodyLines (lines ++ [(n + 1, line)])) k ↔
        FollowsReferences (s.bodyLines lines) k :=
    fun k hk => followsReferences_readLine hf hb hk
  have hplace : ∀ k ≤ n, FollowsReferences (s.bodyLines lines) k ↔
      FollowsReferences ((s.readLine (n + 1) line next).bodyLines (lines ++ [(n + 1, line)])) k :=
    fun k hk => (hfollows k (Nat.le_succ_of_le hk)).symm
  have hhere := h.inReferences_iff hf hb line next
  have hlisted := Keeps.concat ⟨h.mem_listed, h.listed_nodup⟩ line _ hb hplace hhere
  have hmentioned := Keeps.concat ⟨h.mem_mentioned, h.mentioned_nodup⟩ line (!s.setting.inReferences) hb
    (fun k hk => not_congr (hplace k hk)) (by rw [← hhere, Bool.not_eq_true', Bool.not_eq_true])
  have hlisted_eq : (s.readLine (n + 1) line next).items.listedRfcs.map Entry.value =
      if Text.isVisible line then
        (if s.setting.inReferences then Items.rfcsIn (Text.trim line) else []).foldl Items.addText
          (s.items.listedRfcs.map Entry.value)
      else s.items.listedRfcs.map Entry.value := by
    rw [hitems, apply_ite (fun items : Items => items.listedRfcs.map Entry.value), Items.listed_addLine]
  have hmentioned_eq : (s.readLine (n + 1) line next).items.mentionedRfcs =
      if Text.isVisible line then
        (if !s.setting.inReferences then Items.rfcsIn (Text.trim line) else []).foldl Items.addText
          s.items.mentionedRfcs
      else s.items.mentionedRfcs := by
    rw [hitems, apply_ite Items.mentionedRfcs, Items.mentioned_addLine]
    cases s.setting.inReferences <;> rfl
  rw [← hlisted_eq] at hlisted
  rw [← hmentioned_eq] at hmentioned
  exact ⟨h.part_readLine hf hb, hlisted.mem_iff, hmentioned.mem_iff, hlisted.nodup, hmentioned.nodup⟩

end Steps

theorem Reached.sorted {ls : List Text} {s : Scan} (h : Reached ls s) :
    Sorted (Text.numberFrom 1 ls) (s.bodyLines (Text.numberFrom 1 ls)) s :=
  h.overLines (motive := fun lines s => Sorted lines (s.bodyLines lines) s) sorted_initial
    fun h hb ih => ih.readLine hb h.fronted

end Scan

/-- Lines in the order of their numbers. -/
def InOrder (lines : List (Nat × Text)) : Prop :=
  lines.Pairwise fun l l' => l.1 < l'.1

theorem inOrder_numberFrom (n : Nat) (ls : List Text) : InOrder (Text.numberFrom n ls) := by
  induction ls generalizing n with
  | nil => exact List.Pairwise.nil
  | cons line ls ih =>
    refine List.Pairwise.cons ?_ (ih (n + 1))
    intro l hl
    exact (Text.bounds_of_mem_numberFrom hl).1

theorem InOrder.linesBefore {body : List (Nat × Text)} (h : InOrder body) (num : Nat) :
    InOrder (linesBefore num body) :=
  List.Pairwise.filter _ h

/-- What the last dividing line opens, by the numbers of the lines. -/
theorem lastOpened_eq_some_iff {body : List (Nat × Text)} (hb : InOrder body) (p : Part) :
    lastOpened body = some p ↔
      ∃ h ∈ body, Heading.opened? (Text.trim h.2) = some p ∧
        ∀ e ∈ body, h.1 < e.1 → Heading.divides (Text.trim e.2) = false := by
  induction body using List.reverseRecOn with
  | nil => simp [lastOpened]
  | append_singleton body l ih =>
    obtain ⟨hbody, -, hlast⟩ := List.pairwise_append.mp hb
    have hlt : ∀ h ∈ body, h.1 < l.1 := fun h hh => hlast h hh l (by simp)
    rw [lastOpened_concat]
    split_ifs with hd
    · constructor
      · intro ho
        refine ⟨l, by simp, ho, ?_⟩
        intro e he hle
        rcases List.mem_append.mp he with he | he
        · exact absurd (hlt e he) (Nat.lt_asymm hle)
        · rw [List.mem_singleton.mp he] at hle
          exact absurd hle (Nat.lt_irrefl _)
      · rintro ⟨h, hh, ho, hnone⟩
        rcases List.mem_append.mp hh with hh | hh
        · rw [hnone l (by simp) (hlt h hh)] at hd
          exact Bool.noConfusion hd
        · rwa [List.mem_singleton.mp hh] at ho
    · rw [ih hbody]
      constructor
      · rintro ⟨h, hh, ho, hnone⟩
        refine ⟨h, List.mem_append_left _ hh, ho, ?_⟩
        intro e he hle
        rcases List.mem_append.mp he with he | he
        · exact hnone e he hle
        · rw [List.mem_singleton.mp he]
          simpa using hd
      · rintro ⟨h, hh, ho, hnone⟩
        rcases List.mem_append.mp hh with hh | hh
        · exact ⟨h, hh, ho, fun e he => hnone e (List.mem_append_left _ he)⟩
        · rw [List.mem_singleton.mp hh] at ho
          exact absurd (Heading.divides_of_opened? ho) hd

namespace Document

/-- The lines of the body. -/
def bodyLines (d : Document) : List (Nat × Text) :=
  d.scan.bodyLines d.lines

/-- The line stands after a heading of the references and before the line that ends them. -/
def InReferences (d : Document) (num : Nat) : Prop :=
  ∃ h ∈ d.bodyLines, h.1 < num ∧ Heading.opened? (Text.trim h.2) = some .references ∧
    ∀ e ∈ d.bodyLines, h.1 < e.1 → e.1 ≤ num → Heading.divides (Text.trim e.2) = false

/-- The line is the one that ends the references. -/
def EndsReferences (d : Document) (num : Nat) : Prop :=
  (∃ e ∈ d.bodyLines, e.1 = num ∧ Heading.divides (Text.trim e.2)) ∧
    ∃ h ∈ d.bodyLines, h.1 < num ∧ Heading.opened? (Text.trim h.2) = some .references ∧
      ∀ e ∈ d.bodyLines, h.1 < e.1 → e.1 < num → Heading.divides (Text.trim e.2) = false

instance (d : Document) (num : Nat) : Decidable (d.InReferences num) :=
  inferInstanceAs (Decidable (∃ h ∈ d.bodyLines, _))

instance (d : Document) (num : Nat) : Decidable (d.EndsReferences num) :=
  inferInstanceAs (Decidable (_ ∧ _))

/-- References are sorted by the extent of the references. -/
structure SortsByExtent (d : Document) : Prop where
  mem_listed : ∀ v, v ∈ d.scan.items.listedRfcs.map Entry.value ↔ CitedWhere d.lines d.InReferences v
  mem_mentioned : ∀ v, v ∈ d.scan.items.mentionedRfcs ↔
    CitedWhere d.lines (fun num => ¬d.InReferences num) v
  listed_nodup : (d.scan.items.listedRfcs.map Entry.value).Nodup
  mentioned_nodup : d.scan.items.mentionedRfcs.Nodup

theorem followsReferences_iff {d : Document} (hb : InOrder d.bodyLines) (num : Nat) :
    FollowsReferences d.bodyLines num ↔ d.InReferences num ∨ d.EndsReferences num := by
  unfold FollowsReferences
  rw [lastOpened_eq_some_iff (hb.linesBefore num)]
  constructor
  · rintro ⟨h, hh, ho, hnone⟩
    obtain ⟨hm, hlt⟩ := mem_linesBefore.mp hh
    have hbetween : ∀ e ∈ d.bodyLines, h.1 < e.1 → e.1 < num →
        Heading.divides (Text.trim e.2) = false :=
      fun e he hle hlt => hnone e (mem_linesBefore.mpr ⟨he, hlt⟩) hle
    by_cases hd : ∃ e ∈ d.bodyLines, e.1 = num ∧ Heading.divides (Text.trim e.2)
    · exact Or.inr ⟨hd, h, hm, hlt, ho, hbetween⟩
    · refine Or.inl ⟨h, hm, hlt, ho, ?_⟩
      intro e he hle hen
      rcases Nat.lt_or_eq_of_le hen with hen | hen
      · exact hbetween e he hle hen
      · rw [Bool.eq_false_iff]
        exact fun hdiv => hd ⟨e, he, hen, hdiv⟩
  · rintro (⟨h, hm, hlt, ho, hnone⟩ | ⟨-, h, hm, hlt, ho, hnone⟩)
    · refine ⟨h, mem_linesBefore.mpr ⟨hm, hlt⟩, ho, ?_⟩
      intro e he hle
      obtain ⟨hem, hen⟩ := mem_linesBefore.mp he
      exact hnone e hem hle (Nat.le_of_lt hen)
    · refine ⟨h, mem_linesBefore.mpr ⟨hm, hlt⟩, ho, ?_⟩
      intro e he hle
      obtain ⟨hem, hen⟩ := mem_linesBefore.mp he
      exact hnone e hem hle hen

/-- The line that ends the references is none of them. -/
theorem EndsReferences.not_inReferences {d : Document} {num : Nat} (h : d.EndsReferences num) :
    ¬d.InReferences num := by
  obtain ⟨⟨e, he, hen, hd⟩, -⟩ := h
  rintro ⟨k, -, hlt, -, hnone⟩
  rw [hnone e he (hen ▸ hlt) (Nat.le_of_eq hen)] at hd
  exact Bool.noConfusion hd

theorem sorted_ofText (fileName : Option Text) (t : Text) :
    Scan.Sorted (ofText fileName t).lines (ofText fileName t).bodyLines
      (Scan.initial.readLines (ofText fileName t).lines) := by
  have h := (Scan.Reached.readLines (Text.lines (prepare t))).sorted
  rw [← Scan.bodyLines_closePart (Text.numberedLines (prepare t)).length] at h
  exact h

theorem inOrder_bodyLines (fileName : Option Text) (t : Text) :
    InOrder (ofText fileName t).bodyLines :=
  List.Pairwise.filter _ (inOrder_numberFrom 1 (Text.lines (prepare t)))

theorem items_ofText (fileName : Option Text) (t : Text) :
    (ofText fileName t).scan.items = (Scan.initial.readLines (ofText fileName t).lines).items :=
  Scan.items_closePart _ _

section OfText

variable (fileName : Option Text) (t v : Text)

theorem mem_listedRfcs_ofText :
    v ∈ (ofText fileName t).scan.items.listedRfcs.map Entry.value ↔
      CitedWhere (ofText fileName t).lines
        (fun num => (ofText fileName t).InReferences num ∨ (ofText fileName t).EndsReferences num) v := by
  rw [items_ofText, (sorted_ofText fileName t).mem_listed v]
  refine citedWhere_congr (Text.below_numberFrom _) fun num _ => ?_
  exact followsReferences_iff (inOrder_bodyLines fileName t) num

theorem mem_mentionedRfcs_ofText :
    v ∈ (ofText fileName t).scan.items.mentionedRfcs ↔
      CitedWhere (ofText fileName t).lines
        (fun num => ¬(ofText fileName t).InReferences num ∧ ¬(ofText fileName t).EndsReferences num)
        v := by
  rw [items_ofText, (sorted_ofText fileName t).mem_mentioned v]
  refine citedWhere_congr (Text.below_numberFrom _) fun num _ => ?_
  rw [followsReferences_iff (inOrder_bodyLines fileName t) num, not_or]

theorem nodup_listedRfcs_ofText :
    ((ofText fileName t).scan.items.listedRfcs.map Entry.value).Nodup := by
  rw [items_ofText]
  exact (sorted_ofText fileName t).listed_nodup

theorem nodup_mentionedRfcs_ofText : (ofText fileName t).scan.items.mentionedRfcs.Nodup := by
  rw [items_ofText]
  exact (sorted_ofText fileName t).mentioned_nodup

end OfText

/-- The references of any text.  The heading that ends the references is scanned as if it were one of their
lines, which agrees with their extent only if all numbers on it stand elsewhere on both sides too. -/
theorem references_ofText (fileName : Option Text) (t : Text) :
    let d := ofText fileName t
    (∀ v, v ∈ d.scan.items.listedRfcs.map Entry.value ↔
      CitedWhere d.lines (fun num => d.InReferences num ∨ d.EndsReferences num) v) ∧
    (∀ v, v ∈ d.scan.items.mentionedRfcs ↔
      CitedWhere d.lines (fun num => ¬d.InReferences num ∧ ¬d.EndsReferences num) v) ∧
    (d.scan.items.listedRfcs.map Entry.value).Nodup ∧ d.scan.items.mentionedRfcs.Nodup ∧
    (d.SortsByExtent ↔ ∀ v, CitedWhere d.lines d.EndsReferences v →
      CitedWhere d.lines d.InReferences v ∧
        CitedWhere d.lines (fun num => ¬d.InReferences num ∧ ¬d.EndsReferences num) v) := by
  intro d
  have hl := mem_listedRfcs_ofText fileName t
  have hm := mem_mentionedRfcs_ofText fileName t
  have hlisted := nodup_listedRfcs_ofText fileName t
  have hmentioned := nodup_mentionedRfcs_ofText fileName t
  refine ⟨hl, hm, hlisted, hmentioned, ?_, ?_⟩
  · intro h v hv
    constructor
    · rw [← h.mem_listed v, hl v]
      exact hv.mono fun k => Or.inr
    · rw [← hm v, h.mem_mentioned v]
      exact hv.mono fun k => EndsReferences.not_inReferences
  · intro hends
    refine ⟨fun v => ?_, fun v => ?_, hlisted, hmentioned⟩
    · rw [hl v, citedWhere_or]
      exact ⟨fun hv => hv.elim id fun hv => (hends v hv).1, Or.inl⟩
    · rw [hm v]
      refine ⟨fun hv => hv.mono fun k hk => hk.1, ?_⟩
      rintro ⟨l, hmem, hvis, hv, hin⟩
      by_cases he : d.EndsReferences l.1
      · exact (hends v ⟨l, hmem, hvis, hv, he⟩).2
      · exact ⟨l, hmem, hvis, hv, hin, he⟩

/-- A heading after the references that refers to an RFC. -/
theorem not_sortsByExtent :
    ¬(ofText none
      "Front\n\n\nTitle\n\n1. Normative References\n\n2. Use of RFC 1234\n".toList).SortsByExtent := by
  intro h
  have hlisted : "1234".toList ∈ (ofText none
      "Front\n\n\nTitle\n\n1. Normative References\n\n2. Use of RFC 1234\n".toList).scan.items.listedRfcs.map
        Entry.value := by
    decide +kernel
  have hcited := (h.mem_listed _).mp hlisted
  revert hcited
  unfold CitedWhere
  decide +kernel

end Document
end DraftLint.Plain
