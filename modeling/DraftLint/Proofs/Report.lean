import DraftLint.CommandLine.Run
import DraftLint.Proofs.Outcome
import DraftLint.Proofs.Text.Filling
import Mathlib.Data.List.Forall2

/-!
# Reports about the same nits

Whatever the format, a report tells of all nits of a file and of nothing else: the summary by their numbers, the count by
one number, the JSON value by one entry for each in their order, and the text to be read by one item for each, with the
graver ones first.
-/

namespace DraftLint

namespace Nit

variable {ns : List Nit} {ss : List Severity}

/-- Nits that are put in order by severity are the same nits. -/
theorem perm_flatMap_ofSeverity (hss : ss.Nodup) (h : ∀ n ∈ ns, n.severity ∈ ss) :
    (ss.flatMap fun s => ofSeverity s ns).Perm ns := by
  induction ss generalizing ns with
  | nil =>
    obtain rfl : ns = [] := List.eq_nil_iff_forall_not_mem.mpr fun n hn => List.not_mem_nil (h n hn)
    rfl
  | cons s ss ih =>
    obtain ⟨hs, hss⟩ := List.nodup_cons.mp hss
    have hothers : ∀ t ∈ ss, ofSeverity t ns = ofSeverity t (ns.filter fun n => !(n.severity == s)) := by
      intro t ht
      rw [ofSeverity, ofSeverity, List.filter_filter]
      refine List.filter_congr fun n _ => ?_
      by_cases hn : n.severity = t
      · have hne : n.severity ≠ s := by
          rintro rfl
          exact hs (hn ▸ ht)
        simp [hn, hn ▸ hne]
      · simp [hn]
    have hrest : ∀ n ∈ ns.filter (fun n => !(n.severity == s)), n.severity ∈ ss := by
      intro n hn
      obtain ⟨hn, hne⟩ := List.mem_filter.mp hn
      exact (List.mem_cons.mp (h n hn)).resolve_left (by simpa using hne)
    rw [List.flatMap_cons, List.flatMap_congr hothers]
    exact ((ih hss hrest).append_left _).trans (List.filter_append_perm _ ns)

end Nit

namespace Json

variable {name other : String}

theorem get?_record_cons_self (name : String) (v : Json) (fields : List (String × Json)) :
    (record ((name, v) :: fields)).get? name = some v := by
  simp [record, get?]

theorem get?_record_cons_of_ne (h : other ≠ name) (v : Json) (fields : List (String × Json)) :
    (record ((other, v) :: fields)).get? name = (record fields).get? name := by
  have hne : (other.toList == name.toList) = false := beq_eq_false_iff_ne.mpr fun heq => h (String.toList_inj.mp heq)
  simp [record, get?, hne]

end Json

namespace Report

open Text CommandLine

/-- What a report to be read tells about the places of a nit: all of them line by line if it is verbose, and otherwise the
first three and the number of those that remain. -/
inductive Placed (verbose : Bool) (file : Text) : List Place → Text → Prop where
  | nowhere : Placed verbose file [] []
  | all {places : List Place} (hverbose : verbose) :
    Placed verbose file places (places.flatMap fun p => "      ".toList ++ placeText file p ++ ['\n'])
  | few {places : List Place} (hverbose : verbose = false) (hne : places ≠ []) (hfew : places.length ≤ 3) :
    Placed verbose file places ("    At ".toList ++ join [',', ' '] (places.map (placeText file)) ++ ['\n'])
  | many {first rest : List Place} (hverbose : verbose = false) (hfirst : first.length = 3) (hrest : rest ≠ []) :
    Placed verbose file (first ++ rest)
      ("    At ".toList ++ join [',', ' '] (first.map (placeText file)) ++ s!" and {rest.length} more".toList ++ ['\n'])

theorem isEmpty_placeTexts (file : Text) {places : List Place} (hne : places ≠ []) :
    (places.map (placeText file)).isEmpty = false := by
  rw [List.isEmpty_map, List.isEmpty_eq_false_iff.mpr hne]

/-- A short report shows as many places as there is room for. -/
theorem placed_short (file : Text) {places : List Place} (hne : places ≠ []) :
    Placed false file places (placeLines false (places.map (placeText file))) := by
  rw [placeLines, isEmpty_placeTexts file hne, if_neg Bool.false_ne_true, if_neg Bool.false_ne_true, List.length_map]
  dsimp only
  by_cases hfew : places.length ≤ 3
  · have hmore : places.length - maxPlaces = 0 := Nat.sub_eq_zero_of_le hfew
    rw [if_pos hmore, List.append_nil, List.take_of_length_le (by rw [List.length_map]; exact hfew)]
    exact .few rfl hne hfew
  · have hmore : places.length - maxPlaces ≠ 0 := Nat.sub_ne_zero_of_lt (Nat.lt_of_not_le hfew)
    have hfirst : (places.take 3).length = 3 := List.length_take_of_le (Nat.le_of_not_le hfew)
    have hrest : places.drop 3 ≠ [] := by
      rw [Ne, List.drop_eq_nil_iff]
      exact hfew
    have hplaced : Placed false file (places.take 3 ++ places.drop 3) _ := .many rfl hfirst hrest
    rw [List.take_append_drop, List.length_drop] at hplaced
    rw [if_neg hmore, ← List.map_take]
    exact hplaced

theorem placed_placeLines (verbose : Bool) (file : Text) (places : List Place) :
    Placed verbose file places (placeLines verbose (places.map (placeText file))) := by
  by_cases hne : places = []
  · rw [hne]
    exact .nowhere
  cases verbose with
  | false => exact placed_short file hne
  | true =>
    rw [placeLines, isEmpty_placeTexts file hne, if_neg Bool.false_ne_true, if_pos rfl, List.flatMap_map]
    exact .all rfl

/-- An item of a report to be read shows a nit: its code and its message, which may be wrapped, the page that explains it,
and its places. -/
def Shows (verbose : Bool) (file : Text) (n : Nit) (item : Text) : Prop :=
  ∃ lead places, item = lead ++ ['\n'] ++ referenceLines n.reference ++ places ∧
    ink lead = ink ("*[" ++ n.code ++ "]" ++ n.message).toList ∧ Placed verbose file (n.places.getD []) places

theorem shows_nitLines (columns : Nat) (verbose : Bool) (file : Text) (n : Nit) :
    Shows verbose file n (nitLines columns verbose file n) := by
  obtain ⟨lead, hwrap, hink⟩ := @Wrap.exists_wrap 120 4 (by decide) (by decide) (by decide) columns
    ("  * [" ++ n.code ++ "] " ++ n.message).toList
  have hitem : itemLines columns n.code n.message = lead ++ ['\n'] :=
    congrArg (fun u : Option Text => u.getD ("  * [" ++ n.code ++ "] " ++ n.message).toList ++ ['\n']) hwrap
  refine ⟨lead, _, ?_, hink.trans ?_, placed_placeLines verbose file (n.places.getD [])⟩
  · rw [nitLines, hitem]
    rfl
  · have hopening : ink "  * [".toList = ink "*[".toList := rfl
    have hclosing : ink "] ".toList = ink "]".toList := rfl
    simp only [String.toList_append, ink_append, hopening, hclosing]

/-- A part of a report to be read: a severity, and its nits with the text of each. -/
structure Chapter where
  severity : Severity
  items : List (Nit × Text)

namespace Chapter

def nits (c : Chapter) : List Nit :=
  c.items.map Prod.fst

def text (c : Chapter) : Text :=
  headingLines c.severity ++ c.items.flatMap Prod.snd

end Chapter

/-- A report to be read has a chapter for each severity that occurs, the gravest first; the nits of the severity stand in it
as they stand in the list, and the chapters together have every nit once. -/
structure Listing (verbose : Bool) (path : Text) (ns : List Nit) (chapters : List Chapter) (report : Text) : Prop where
  severities : chapters.map Chapter.severity = Severity.reported.filter fun s => ns.any fun n => n.severity == s
  order : ∀ c ∈ chapters, c.nits = ns.filter fun n => n.severity == c.severity
  once : (chapters.flatMap Chapter.nits).Perm ns
  items : ∀ c ∈ chapters, ∀ i ∈ c.items, Shows verbose (FileName.base path) i.1 i.2
  text : report = fileLine path ++ chapters.flatMap Chapter.text ++ ("\n" ++ summary ns ++ "\n\n").toList

section Pretty

variable {columns : Nat} {verbose : Bool} {path file : Text} {ns : List Nit}

/-- The chapter of a severity. -/
def chapter (columns : Nat) (verbose : Bool) (file : Text) (ns : List Nit) (s : Severity) : Chapter :=
  ⟨s, (Nit.ofSeverity s ns).map fun n => (n, nitLines columns verbose file n)⟩

theorem nits_chapter (s : Severity) : (chapter columns verbose file ns s).nits = Nit.ofSeverity s ns := by
  rw [Chapter.nits, chapter, List.map_map]
  exact List.map_id _

theorem isEmpty_ofSeverity (ns : List Nit) (s : Severity) :
    (Nit.ofSeverity s ns).isEmpty = !ns.any fun n => n.severity == s := by
  rw [Nit.ofSeverity]
  induction ns with
  | nil => rfl
  | cons n ns ih =>
    rw [List.filter_cons, List.any_cons]
    cases n.severity == s
    · exact ih
    · rfl

/-- A severity has its chapter in the report if it occurs. -/
theorem severityLines_eq (s : Severity) :
    severityLines columns verbose file ns s =
      if ns.any fun n => n.severity == s then (chapter columns verbose file ns s).text else [] := by
  rw [severityLines, isEmpty_ofSeverity, Chapter.text, chapter, List.flatMap_map]
  cases ns.any fun n => n.severity == s <;> rfl

/-- What is set out for some items only is set out for a part of the list. -/
theorem flatMap_if {α β : Type} (p : α → Bool) (f : α → List β) (xs : List α) :
    (xs.flatMap fun x => if p x then f x else []) = (xs.filter p).flatMap f := by
  induction xs with
  | nil => rfl
  | cons x xs ih =>
    rw [List.flatMap_cons, ih, List.filter_cons]
    cases p x <;> rfl

theorem exists_listing (columns : Nat) (verbose : Bool) (path : Text) (h : ∀ n ∈ ns, n.severity ∈ Severity.reported) :
    ∃ chapters, Listing verbose path ns chapters (pretty columns verbose path ns) := by
  let found := Severity.reported.filter fun s => ns.any fun n => n.severity == s
  let file := FileName.base path
  refine ⟨found.map (chapter columns verbose file ns), ?_, ?_, ?_, ?_, ?_⟩
  · rw [List.map_map]
    exact List.map_id _
  · intro c hc
    obtain ⟨s, -, rfl⟩ := List.mem_map.mp hc
    exact nits_chapter s
  · have hnits : (found.map (chapter columns verbose file ns)).flatMap Chapter.nits =
        Severity.reported.flatMap fun s => Nit.ofSeverity s ns := by
      rw [List.flatMap_map, ← flatMap_if]
      refine List.flatMap_congr fun s _ => ?_
      rw [nits_chapter]
      split_ifs with hany
      · rfl
      · have hempty := isEmpty_ofSeverity ns s
        rw [Bool.eq_false_iff.mpr hany, Bool.not_false, List.isEmpty_iff] at hempty
        exact hempty.symm
    rw [hnits]
    exact Nit.perm_flatMap_ofSeverity (by decide) h
  · intro c hc i hi
    obtain ⟨s, -, rfl⟩ := List.mem_map.mp hc
    obtain ⟨n, -, rfl⟩ := List.mem_map.mp hi
    exact shows_nitLines columns verbose file n
  · have hlines : severityLines columns verbose file ns = _ := funext severityLines_eq
    rw [pretty, hlines, flatMap_if, List.flatMap_map]

end Pretty

/-- A JSON value has the line of a place, and its column if there is one. -/
structure PlaceEntry (p : Place) (v : Json) : Prop where
  line : v.get? "line" = some (.ofNat p.line)
  column : v.get? "col" = (column? p).map Json.ofNat

/-- A JSON value has the code and the message of a nit, the page that explains it and its places in their order, the latter
two if there are any. -/
structure Entry (n : Nit) (v : Json) : Prop where
  code : v.get? "code" = some (.ofString n.code)
  message : v.get? "desc" = some (.ofString n.message)
  reference : v.get? "ref" = (n.reference.filter (!·.isEmpty)).map Json.ofString
  places : match n.places.getD [] with
    | [] => v.get? "line" = none
    | places => ∃ vs, v.get? "line" = some (.array vs) ∧ List.Forall₂ PlaceEntry places vs

theorem placeEntry_placeValue (p : Place) : PlaceEntry p (placeValue p) := by
  constructor
  · exact Json.get?_record_cons_self ..
  · rw [placeValue, Json.get?_record_cons_of_ne (by decide)]
    cases column? p with
    | none => rfl
    | some column => exact Json.get?_record_cons_self ..

/-- The fields of an entry that it need not have. -/
def detailFields (n : Nit) : List (String × Json) :=
  (match n.reference.filter (!·.isEmpty) with
    | some r => [("ref", .ofString r)]
    | none => []) ++
    match n.places.getD [] with
    | [] => []
    | places => [("line", .ofList placeValue places)]

theorem nitValue_eq (n : Nit) :
    nitValue n = .record (("code", .ofString n.code) :: ("desc", .ofString n.message) :: detailFields n) :=
  rfl

theorem get?_ref_detailFields (n : Nit) :
    (Json.record (detailFields n)).get? "ref" = (n.reference.filter (!·.isEmpty)).map Json.ofString := by
  rw [detailFields]
  cases n.reference.filter (!·.isEmpty) with
  | some r => exact Json.get?_record_cons_self ..
  | none =>
    cases n.places.getD [] with
    | nil => rfl
    | cons p places => exact Json.get?_record_cons_of_ne (by decide) ..

theorem get?_line_detailFields (n : Nit) :
    (Json.record (detailFields n)).get? "line" =
      match n.places.getD [] with
      | [] => none
      | places => some (.ofList placeValue places) := by
  rw [detailFields]
  cases n.reference.filter (!·.isEmpty) with
  | some r =>
    rw [List.singleton_append, Json.get?_record_cons_of_ne (by decide)]
    cases n.places.getD [] with
    | nil => rfl
    | cons p places => exact Json.get?_record_cons_self ..
  | none =>
    cases n.places.getD [] with
    | nil => rfl
    | cons p places => exact Json.get?_record_cons_self ..

theorem entry_nitValue (n : Nit) : Entry n (nitValue n) := by
  rw [nitValue_eq]
  constructor
  · exact Json.get?_record_cons_self ..
  · rw [Json.get?_record_cons_of_ne (by decide)]
    exact Json.get?_record_cons_self ..
  · rw [Json.get?_record_cons_of_ne (by decide), Json.get?_record_cons_of_ne (by decide), get?_ref_detailFields]
  · rw [Json.get?_record_cons_of_ne (by decide), Json.get?_record_cons_of_ne (by decide), get?_line_detailFields]
    cases n.places.getD [] with
    | nil => rfl
    | cons p places =>
      refine ⟨_, rfl, ?_⟩
      rw [List.forall₂_map_right_iff, List.forall₂_same]
      exact fun p _ => placeEntry_placeValue p

/-- The number of nits of a severity. -/
def number (ns : List Nit) (s : Severity) : Nat :=
  (ns.filter fun n => n.severity == s).length

variable {ns : List Nit}

theorem number_add (h : ∀ n ∈ ns, n.severity ∈ Severity.reported) :
    number ns .error + number ns .warning + number ns .comment = ns.length := by
  have hperm : (Severity.reported.flatMap fun s => Nit.ofSeverity s ns).Perm ns :=
    Nit.perm_flatMap_ofSeverity (by decide) h
  rw [← hperm.length_eq]
  simp [Severity.reported, number, Nit.ofSeverity, Nat.add_assoc]

theorem summary_eq (ns : List Nit) :
    summary ns = "Found " ++ Issue.counted (number ns .error) "error" ++ ", " ++
      Issue.counted (number ns .warning) "warning" ++ ", " ++ Issue.counted (number ns .comment) "comment" ++ "." := by
  have hjoin : ∀ a b c : String, ", ".intercalate [a, b, c] = a ++ ", " ++ b ++ ", " ++ c := fun _ _ _ => rfl
  rw [summary, Severity.reported, List.map_cons, List.map_cons, List.map_cons, List.map_nil, hjoin]
  simp only [String.append_assoc]
  rfl

theorem anyError_iff (ns : List Nit) : Nit.anyError ns ↔ number ns .error ≠ 0 := by
  have hempty : (Nit.ofSeverity .error ns).isEmpty = !Nit.anyError ns := isEmpty_ofSeverity ns .error
  rw [number, Ne, List.length_eq_zero_iff, ← List.isEmpty_iff, ← Nit.ofSeverity, hempty, Bool.not_eq_true',
    Bool.not_eq_false]

theorem get?_result_value (path : Text) (size : Nat) (ns : List Nit) :
    (value path size ns).get? "result" = some (.ofString (if Nit.anyError ns then "fail" else "pass")) := by
  rw [value, resultValue, Json.get?_record_cons_self]
  cases Nit.anyError ns <;> rfl

theorem get?_nits_value (path : Text) (size : Nat) (ns : List Nit) :
    (value path size ns).get? "nits" = some (.array (ns.map nitValue)) := by
  rw [value, resultValue, Json.get?_record_cons_of_ne (by decide), Json.get?_record_cons_of_ne (by decide),
    Json.get?_record_cons_self]

/-- The reports about some nits agree. -/
structure Agreement (env : Environment) (a : Arguments) (path : Text) (size : Nat) (ns : List Nit) : Prop where
  summary : summary ns = "Found " ++ Issue.counted (number ns .error) "error" ++ ", " ++
    Issue.counted (number ns .warning) "warning" ++ ", " ++ Issue.counted (number ns .comment) "comment" ++ "."
  total : number ns .error + number ns .warning + number ns .comment = ns.length
  count : (reportNits env { a with output := .count } path size ns).output = Text.ofNat ns.length ++ ['\n']
  json : (reportNits env { a with output := .json } path size ns).output = (value path size ns).spread ++ ['\n']
  entries : ∃ items, (value path size ns).get? "nits" = some (.array items) ∧ items.length = ns.length ∧
    List.Forall₂ Entry ns items
  failed : (value path size ns).get? "result" = some (.ofString "fail") ↔ number ns .error ≠ 0
  pretty : ∃ chapters,
    Listing a.verbose path ns chapters (reportNits env { a with output := .pretty } path size ns).output

/-- The reports about nits that are reported agree, in whatever format they are asked for. -/
theorem agreement_of_reported (env : Environment) (a : Arguments) (path : Text) (size : Nat)
    (h : ∀ n ∈ ns, n.severity ∈ Severity.reported) : Agreement env a path size ns where
  summary := summary_eq ns
  total := number_add h
  count := rfl
  json := rfl
  entries := by
    refine ⟨_, get?_nits_value path size ns, List.length_map .., ?_⟩
    rw [List.forall₂_map_right_iff, List.forall₂_same]
    exact fun n _ => entry_nitValue n
  failed := by
    rw [get?_result_value, ← anyError_iff]
    cases Nit.anyError ns <;> simp [Json.ofString]
  pretty := exists_listing env.columns a.verbose path h

/-- A wide screen, and no files. -/
def wideScreen : Environment where
  today := ⟨2025, 7, 1, by decide⟩
  world := fun _ => none
  files := fun _ => .error .missing
  packages := []
  columns := 100

/-- Comments around an error, which stands in more places than are shown. -/
def mixedNits : List Nit :=
  [⟨.comment, "A", "first", none, none⟩,
    ⟨.error, "B", "second", some "page", some [⟨3, some 7⟩, ⟨4, none⟩, ⟨5, some 0⟩, ⟨9, none⟩]⟩,
    ⟨.comment, "C", "third", some "", some []⟩]

theorem agreement_mixedNits :
    (∀ n ∈ mixedNits, n.severity ∈ Severity.reported) ∧
      Agreement wideScreen .none "drafts/a.txt".toList 9 mixedNits ∧
      summary mixedNits = "Found 1 error, 0 warnings, 2 comments." ∧
      Report.pretty 100 false "drafts/a.txt".toList mixedNits =
        ("Inspecting file drafts/a.txt\n\nErrors:\n\n  * [B] second\n    See page\n" ++
          "    At a.txt(3:7), a.txt(4), a.txt(5) and 1 more\n\nComments:\n\n  * [A] first\n  * [C] third\n" ++
          "\nFound 1 error, 0 warnings, 2 comments.\n\n").toList := by
  have hreported : ∀ n ∈ mixedNits, n.severity ∈ Severity.reported := by decide
  exact ⟨hreported, agreement_of_reported wideScreen .none _ 9 hreported, by decide +kernel, by decide +kernel⟩

end Report
end DraftLint
