import DraftLint.Proofs.Text.Lines
import Mathlib.Data.List.Basic
import Mathlib.Data.List.Induction
import Mathlib.Data.List.TakeWhile

/-!
# Runs of lines in front of the body

The front page is the first run of visible lines.  The first visible line behind it is the title, and the line
right after the title, if it can be seen, is the name.  Each line that is added continues the run, is the title or
the name, or changes none of them.
-/

namespace DraftLint

namespace Plain

section Lines

/-- The first run of visible lines. -/
def frontRun (lines : List (Nat × Text)) : List (Nat × Text) :=
  (lines.dropWhile fun l => !Text.isVisible l.2).takeWhile fun l => Text.isVisible l.2

/-- What comes behind that run. -/
def behindFront (lines : List (Nat × Text)) : List (Nat × Text) :=
  (lines.dropWhile fun l => !Text.isVisible l.2).dropWhile fun l => Text.isVisible l.2

/-- The first visible line behind the run, with its number. -/
def titleLine? (lines : List (Nat × Text)) : Option (Nat × Text) :=
  (behindFront lines).find? fun l => Text.isVisible l.2

/-- The line with this number, if it is one of them and can be seen. -/
def visibleLine? (num : Nat) (lines : List (Nat × Text)) : Option (Nat × Text) :=
  lines.find? fun l => l.1 == num && Text.isVisible l.2

/-- The visible line right after the title. -/
def nameLine? (lines : List (Nat × Text)) : Option (Nat × Text) :=
  (titleLine? lines).bind fun l => visibleLine? (l.1 + 1) lines

/-- Lines are divided into hidden ones, a run of visible ones and those behind it. -/
structure Divided (lines front behind : List (Nat × Text)) : Prop where
  exists_hidden : ∃ hidden, lines = hidden ++ (front ++ behind) ∧ ∀ l ∈ hidden, Text.isVisible l.2 = false
  visible : ∀ l ∈ front, Text.isVisible l.2
  gap : ∀ l ∈ behind.head?, Text.isVisible l.2 = false
  behind_eq_nil : front = [] → behind = []

variable {lines front behind : List (Nat × Text)} {l : Nat × Text} {n num : Nat}

theorem Divided.eq (h : Divided lines front behind) : frontRun lines = front ∧ behindFront lines = behind := by
  obtain ⟨⟨hidden, rfl, hhidden⟩, hvisible, hgap, hnil⟩ := h
  have hdrop : (hidden ++ (front ++ behind)).dropWhile (fun l => !Text.isVisible l.2) = front ++ behind := by
    rw [List.dropWhile_append_of_pos (by simpa using hhidden)]
    cases front with
    | nil => rw [hnil rfl]; rfl
    | cons l front => simp [hvisible l (List.mem_cons_self ..)]
  have htake : behind.takeWhile (fun l => Text.isVisible l.2) = [] := by
    cases behind with
    | nil => rfl
    | cons l behind => simp [hgap l rfl]
  have hback : behind.dropWhile (fun l => Text.isVisible l.2) = behind := by
    cases behind with
    | nil => rfl
    | cons l behind => simp [hgap l rfl]
  constructor
  · rw [frontRun, hdrop, List.takeWhile_append_of_pos hvisible, htake, List.append_nil]
  · rw [behindFront, hdrop, List.dropWhile_append_of_pos hvisible, hback]

theorem divided (lines : List (Nat × Text)) : Divided lines (frontRun lines) (behindFront lines) where
  exists_hidden := by
    refine ⟨lines.takeWhile fun l => !Text.isVisible l.2, ?_, ?_⟩
    · rw [frontRun, behindFront, List.takeWhile_append_dropWhile, List.takeWhile_append_dropWhile]
    · intro l hl
      simpa using List.mem_takeWhile_imp hl
  visible := by
    intro l hl
    exact List.mem_takeWhile_imp (p := fun l : Nat × Text => Text.isVisible l.2) hl
  gap := by
    intro l hl
    have hhead := List.head?_dropWhile_not (fun l : Nat × Text => Text.isVisible l.2)
      (lines.dropWhile fun l => !Text.isVisible l.2)
    rw [behindFront] at hl
    rw [hl] at hhead
    exact hhead
  behind_eq_nil := by
    intro hnil
    have hhead := List.head?_dropWhile_not (fun l : Nat × Text => !Text.isVisible l.2) lines
    rw [frontRun] at hnil
    rw [behindFront]
    cases hdrop : lines.dropWhile (fun l => !Text.isVisible l.2) with
    | nil => rfl
    | cons l rest =>
      rw [hdrop] at hhead hnil
      have hl : Text.isVisible l.2 = true := by simpa using hhead
      simp [hl] at hnil

/-- A line that can be seen belongs to the run as long as nothing comes behind that. -/
theorem Divided.concat_front (h : Divided lines front []) (hl : Text.isVisible l.2) :
    Divided (lines ++ [l]) (front ++ [l]) [] := by
  obtain ⟨⟨hidden, rfl, hhidden⟩, hvisible, -, -⟩ := h
  refine ⟨⟨hidden, by simp, hhidden⟩, ?_, by simp, fun _ => rfl⟩
  exact List.forall_mem_append.mpr ⟨hvisible, List.forall_mem_singleton.mpr hl⟩

/-- A hidden line in front of the run. -/
theorem Divided.concat_hidden (h : Divided lines [] behind) (hl : Text.isVisible l.2 = false) :
    Divided (lines ++ [l]) [] [] := by
  obtain ⟨⟨hidden, rfl, hhidden⟩, -, -, hnil⟩ := h
  obtain rfl := hnil rfl
  refine ⟨⟨hidden ++ [l], by simp, ?_⟩, by simp, by simp, fun _ => rfl⟩
  exact List.forall_mem_append.mpr ⟨hhidden, List.forall_mem_singleton.mpr hl⟩

/-- A line behind the run, of which the first is hidden. -/
theorem Divided.concat_behind (h : Divided lines front behind) (hfront : front ≠ [])
    (hl : behind = [] → Text.isVisible l.2 = false) : Divided (lines ++ [l]) front (behind ++ [l]) := by
  obtain ⟨⟨hidden, rfl, hhidden⟩, hvisible, hgap, -⟩ := h
  refine ⟨⟨hidden, by simp, hhidden⟩, hvisible, ?_, fun hnil => absurd hnil hfront⟩
  cases behind with
  | nil => simpa using hl rfl
  | cons k behind => exact hgap

/-- The last number of the run tells whether lines come behind it. -/
theorem last_frontRun_eq_iff (ls : List Text) (h : frontRun (Text.numberFrom 1 ls) ≠ []) :
    ((frontRun (Text.numberFrom 1 ls)).getLast?.map (·.1)).getD 0 = ls.length ↔
      behindFront (Text.numberFrom 1 ls) = [] := by
  obtain ⟨hidden, hlines, -⟩ := (divided (Text.numberFrom 1 ls)).exists_hidden
  obtain ⟨front, l, hfront⟩ := (List.eq_nil_or_concat' _).resolve_left h
  rw [hfront] at hlines ⊢
  have hsplit : Text.numberFrom 1 ls = hidden ++ front ++ l :: behindFront (Text.numberFrom 1 ls) := by
    simpa using hlines
  have hnumber := Text.fst_of_numberFrom_eq hsplit
  have hlength := congrArg List.length hsplit
  simp only [Text.length_numberFrom, List.length_append, List.length_cons] at hlength hnumber
  rw [List.getLast?_concat, Option.map_some, Option.getD_some, ← List.length_eq_zero_iff]
  omega

theorem titleLine?_of_behind_nil (h : behindFront lines = []) : titleLine? lines = none := by
  rw [titleLine?, h]
  rfl

/-- A line that can be seen continues the run as long as nothing is behind it. -/
theorem frontRun_concat_visible (h : behindFront lines = []) (hl : Text.isVisible l.2) :
    frontRun (lines ++ [l]) = frontRun lines ++ [l] ∧ titleLine? (lines ++ [l]) = none := by
  have hdivided := divided lines
  rw [h] at hdivided
  obtain ⟨hfront, hbehind⟩ := (hdivided.concat_front hl).eq
  exact ⟨hfront, titleLine?_of_behind_nil hbehind⟩

/-- Behind the run, the first line that can be seen is the title. -/
theorem frontRun_concat_behind (h : behindFront lines ≠ []) (l : Nat × Text) :
    frontRun (lines ++ [l]) = frontRun lines ∧
      titleLine? (lines ++ [l]) = (titleLine? lines).or (if Text.isVisible l.2 then some l else none) := by
  have hne : frontRun lines ≠ [] := fun hnil => h ((divided lines).behind_eq_nil hnil)
  obtain ⟨hfront, hbehind⟩ := ((divided lines).concat_behind hne fun hnil => absurd hnil h).eq
  refine ⟨hfront, ?_⟩
  rw [titleLine?, titleLine?, hbehind, List.find?_append, List.find?_singleton]

theorem frontRun_concat_hidden (hl : Text.isVisible l.2 = false) :
    frontRun (lines ++ [l]) = frontRun lines ∧ titleLine? (lines ++ [l]) = titleLine? lines := by
  by_cases hfront : frontRun lines = []
  · have hdivided := divided lines
    rw [hfront] at hdivided
    obtain ⟨hnil, hbehind⟩ := (hdivided.concat_hidden hl).eq
    rw [hfront, titleLine?_of_behind_nil hbehind, titleLine?_of_behind_nil ((divided lines).behind_eq_nil hfront)]
    exact ⟨hnil, rfl⟩
  · obtain ⟨hsame, hbehind⟩ := ((divided lines).concat_behind hfront fun _ => hl).eq
    refine ⟨hsame, ?_⟩
    rw [titleLine?, titleLine?, hbehind, List.find?_append, List.find?_singleton, if_neg (by simp [hl]), Option.or_none]

theorem visibleLine?_concat (lines : List (Nat × Text)) (num : Nat) (l : Nat × Text) :
    visibleLine? num (lines ++ [l]) =
      (visibleLine? num lines).or (if l.1 = num ∧ Text.isVisible l.2 then some l else none) := by
  simp [visibleLine?, List.find?_append, List.find?_singleton]

theorem visibleLine?_eq_none (hb : Text.Below n lines) (h : n < num) : visibleLine? num lines = none := by
  rw [visibleLine?, List.find?_eq_none]
  intro l hl
  have hle := hb l hl
  simp only [Bool.and_eq_true, beq_iff_eq, not_and]
  omega

/-- Behind the title, the only line that counts is the one right after it. -/
theorem frontRun_concat_titled {k : Nat × Text} (hk : titleLine? lines = some k) (l : Nat × Text) :
    frontRun (lines ++ [l]) = frontRun lines ∧ titleLine? (lines ++ [l]) = some k ∧
      nameLine? (lines ++ [l]) =
        (nameLine? lines).or (if l.1 = k.1 + 1 ∧ Text.isVisible l.2 then some l else none) := by
  have h : behindFront lines ≠ [] := by
    intro hnil
    rw [titleLine?_of_behind_nil hnil] at hk
    cases hk
  obtain ⟨hfront, htitle⟩ := frontRun_concat_behind h l
  rw [hk, Option.some_or] at htitle
  refine ⟨hfront, htitle, ?_⟩
  rw [nameLine?, nameLine?, htitle, hk, Option.bind_some, Option.bind_some, visibleLine?_concat]

/-- The line belongs to the run, or it is the title or the name. -/
def OfFront (lines : List (Nat × Text)) (l : Nat × Text) : Prop :=
  l ∈ frontRun lines ∨ titleLine? lines = some l ∨ nameLine? lines = some l

theorem OfFront.concat (h : OfFront lines l) (next : Nat × Text) : OfFront (lines ++ [next]) l := by
  rcases h with hrun | htitle | hname
  · left
    by_cases hl : Text.isVisible next.2
    · by_cases hbehind : behindFront lines = []
      · rw [(frontRun_concat_visible hbehind hl).1]
        exact List.mem_append_left _ hrun
      · rw [(frontRun_concat_behind hbehind next).1]
        exact hrun
    · rw [(frontRun_concat_hidden (Bool.not_eq_true _ ▸ hl)).1]
      exact hrun
  · exact .inr (.inl (frontRun_concat_titled htitle next).2.1)
  · right; right
    obtain ⟨k, hk, -⟩ := Option.bind_eq_some_iff.mp hname
    rw [(frontRun_concat_titled hk next).2.2, hname, Option.some_or]

theorem OfFront.append (h : OfFront lines l) (more : List (Nat × Text)) : OfFront (lines ++ more) l := by
  induction more using List.reverseRecOn with
  | nil => simpa using h
  | append_singleton more next ih =>
    rw [← List.append_assoc]
    exact ih.concat next

end Lines

end Plain
end DraftLint
