import DraftLint.Proofs.Outcome
import DraftLint.Proofs.Plain.Extents
import DraftLint.Proofs.Plain.Places

/-!
# Places of nits

The places of the nits in plain text lie on lines of the document.  Where a nit is about something on a line,
its column is where that begins.
-/

namespace DraftLint

namespace Plain.Document

/-- The line with this number, the first being line 1. -/
def line? (d : Document) (num : Nat) : Option Text :=
  if 1 ≤ num then (Text.lines d.body)[num - 1]? else none

/-- What a line shows from the column on that a nit with this code gives. -/
def shownBy (code : String) : Text → Prop :=
  if code = "BAD_KEYWORD_COMBINATION" then BeginsCombination
  else if code = "COMMENT_OUT_OF_CODE_BLOCK" then BeginsComment
  else if code = "HYPHENATED_LINE_BREAKS" then IsLastHyphen
  else fun _ => True

/-- The codes of nits that always give columns. -/
def columnCodes : List String :=
  ["BAD_KEYWORD_COMBINATION", "COMMENT_OUT_OF_CODE_BLOCK", "HYPHENATED_LINE_BREAKS"]

/-- The codes of nits that are about each line at most once. -/
def lineCodes : List String :=
  ["RAGGED_RIGHT", "HYPHENATED_LINE_BREAKS", "COMMENT_OUT_OF_CODE_BLOCK", "LINE_TOO_LONG"]

/-- The places of a nit point into the document, at what the nit is about. -/
structure PointsTo (d : Document) (code : String) (ps : List Place) : Prop where
  line_le : ∀ p ∈ ps, 1 ≤ p.line ∧ p.line ≤ (Text.lines d.body).length
  column_le : ∀ p ∈ ps, ∀ c, p.column = some c → ∃ line, d.line? p.line = some line ∧
    1 ≤ c ∧ c ≤ line.length ∧ shownBy code (line.drop (c - 1))
  column_isSome : code ∈ columnCodes → ∀ p ∈ ps, p.column.isSome
  rising : code ∈ lineCodes → ps.Pairwise fun p p' => p.line < p'.line

section Places

variable {d : Document} {code : String} {ps : List Place}

theorem mem_lines_iff {num : Nat} {line : Text} : (num, line) ∈ d.lines ↔ d.line? num = some line := by
  rw [lines, Text.numberedLines, Text.mem_numberFrom_iff, line?]
  split_ifs with h
  · exact and_iff_right h
  · simp [h]

theorem bounds_of_line? {num : Nat} {line : Text} (h : d.line? num = some line) :
    1 ≤ num ∧ num ≤ (Text.lines d.body).length := by
  have hb := Text.bounds_of_mem_numberFrom (mem_lines_iff.mpr h)
  omega

/-- Places that are marked point at what is shown there. -/
theorem pointsTo_of_marks (h : Marks (shownBy code) d.lines ps)
    (hrising : code ∈ lineCodes → ps.Pairwise fun p p' => p.line < p'.line) : d.PointsTo code ps := by
  refine ⟨?_, ?_, ?_, hrising⟩
  · intro p hp
    obtain ⟨line, c, hl, -⟩ := h p hp
    exact bounds_of_line? (mem_lines_iff.mp hl)
  · intro p hp c hc
    obtain ⟨line, c', hl, hc', hpos, hle, hshown⟩ := h p hp
    obtain rfl := Option.some.inj (hc'.symm.trans hc)
    exact ⟨line, mem_lines_iff.mp hl, hpos, hle, hshown⟩
  · intro _ p hp
    obtain ⟨line, c, -, hc, -⟩ := h p hp
    exact Option.isSome_iff_exists.mpr ⟨c, hc⟩

theorem pointsTo_line {num : Nat} {line : Text} (h : d.line? num = some line) (hcode : code ∉ columnCodes) :
    d.PointsTo code [⟨num, none⟩] := by
  refine ⟨?_, ?_, fun hc => absurd hc hcode, fun _ => List.pairwise_singleton _ _⟩
  · exact List.forall_mem_singleton.mpr (bounds_of_line? h)
  · refine List.forall_mem_singleton.mpr ?_
    intro c hc
    cases hc

end Places

end Plain.Document

/-- Where the finding has places, it is not about the structure as a whole, and they point into the document. -/
def Finding.PointsInto (d : Plain.Document) (f : Finding) : Prop :=
  ∀ ps, f.places = some ps → f.issue ≠ .documentStructure ∧ d.PointsTo f.issue.code ps

namespace Rules

open Finding Issue Verdict Plain

variable {d : Plain.Document}

theorem pointsInto_of_none {f : Finding} (h : f.places = none) : f.PointsInto d := by
  intro ps hps
  rw [h] at hps
  cases hps

theorem pointsInto_anywhere (i : Issue) : (anywhere i).PointsInto d :=
  pointsInto_of_none rfl

theorem pointsInto_places {i : Issue} {ps : List Place} (hi : i ≠ documentStructure) (h : d.PointsTo i.code ps) :
    (⟨i, some ps⟩ : Finding).PointsInto d := by
  intro ps' hps'
  obtain rfl := Option.some.inj hps'
  exact ⟨hi, h⟩

/-! Rules that find something about the document as a whole. -/

theorem pointsInto_objectUnless (ok : Bool) (i : Issue) : (Verdict.of (objectUnless ok i)).Only (PointsInto d) := by
  unfold objectUnless
  split_ifs
  · exact only_clean
  · exact only_single (pointsInto_anywhere i)

theorem pointsInto_anywhereIf (c : Prop) [Decidable c] (i : Issue) :
    (Verdict.of (if c then [anywhere i] else [])).Only (PointsInto d) := by
  split_ifs
  · exact only_single (pointsInto_anywhere i)
  · exact only_clean

theorem pointsInto_date (s : Standard) : (date s (.text d)).Only (PointsInto d) := by
  apply only_onValue
  intro found
  cases found with
  | none => exact only_single (pointsInto_anywhere _)
  | some x =>
    unfold nearToday
    dsimp only
    split_ifs
    · exact only_single (pointsInto_anywhere _)
    · exact only_single (pointsInto_anywhere _)
    · exact only_clean

theorem pointsInto_category : (category (.text d)).Only (PointsInto d) := by
  simp only [category]
  split_ifs
  · exact only_clean
  · split
    · exact only_single (pointsInto_anywhere _)
    · split_ifs
      · exact only_clean
      · exact only_single (pointsInto_anywhere _)

theorem pointsInto_copyright (s : Standard) : (copyright s (.text d)).Only (PointsInto d) := by
  simp only [copyright]
  split
  · exact only_clean
  · exact only_single (pointsInto_anywhere _)

theorem pointsInto_fileName : (fileName (.text d)).Only (PointsInto d) := by
  simp only [fileName]
  split
  · exact only_clean
  · refine List.forall_mem_append.mpr ⟨List.forall_mem_append.mpr ⟨List.forall_mem_append.mpr
      ⟨pointsInto_objectUnless _ _, pointsInto_objectUnless _ _⟩, pointsInto_objectUnless _ _⟩, ?_⟩
    split
    · exact pointsInto_objectUnless _ _
    · exact only_clean

theorem pointsInto_draftName : (draftName (.text d)).Only (PointsInto d) := by
  simp only [draftName]
  split
  · split_ifs
    · exact pointsInto_objectUnless _ _
    · exact only_clean
  · exact only_clean

theorem pointsInto_hostNames : (hostNames (.text d)).Only (PointsInto d) := by
  intro f hf
  obtain ⟨name, -, hname⟩ := List.mem_filterMap.mp hf
  split_ifs at hname
  obtain rfl := Option.some.inj hname
  exact pointsInto_anywhere _

/-- Candidates that are read, judged and reported one by one. -/
theorem pointsInto_addresses {α κ : Type} (read? : Text → Option α) (concern? : α → Option κ)
    (issue : Text → α → κ → Issue) (candidates : List Text) :
    (Verdict.of (candidates.filterMap fun candidate => do
      let a ← read? candidate
      let concern ← concern? a
      return anywhere (issue candidate a concern))).Only (PointsInto d) := by
  intro f hf
  obtain ⟨candidate, -, hcandidate⟩ := List.mem_filterMap.mp hf
  obtain ⟨a, -, ha⟩ := Option.bind_eq_some_iff.mp hcandidate
  obtain ⟨concern, -, hconcern⟩ := Option.bind_eq_some_iff.mp ha
  obtain rfl := Option.some.inj hconcern
  exact pointsInto_anywhere _

theorem pointsInto_ipv4 : (ipv4Addresses (.text d)).Only (PointsInto d) :=
  pointsInto_addresses Address.IPv4.read? (·.concern?) (fun _ a concern => ipv4 concern a.text) _

theorem pointsInto_ipv6 : (ipv6Addresses (.text d)).Only (PointsInto d) :=
  pointsInto_addresses Address.IPv6.read? (·.concern?) (fun candidate _ concern => ipv6 concern candidate) _

theorem pointsInto_codeLicense : (codeLicense (.text d)).Only (PointsInto d) :=
  pointsInto_anywhereIf _ _

section Lines

/-- The heading of a part that was found is a line. -/
theorem exists_line_start (h : d.Settled) {p : Part} (hp : p ≠ .header) (hfound : (d.scan.extents.get p).found) :
    ∃ line, d.line? (d.scan.extents.get p).start = some line := by
  obtain ⟨-, hle, hn⟩ := h.bounds p hp hfound
  have hpos : 1 ≤ (d.scan.extents.get p).start := of_decide_eq_true hfound
  have hlength : d.lines.length = (Text.lines d.body).length := Text.length_numberFrom _ _
  have hlt : (d.scan.extents.get p).start - 1 < (Text.lines d.body).length := by
    omega
  refine ⟨(Text.lines d.body)[(d.scan.extents.get p).start - 1], ?_⟩
  rw [Document.line?, if_pos hpos]
  exact List.getElem?_eq_getElem hlt

theorem pointsInto_start (h : d.Settled) {p : Part} (hp : p ≠ .header) (hfound : (d.scan.extents.get p).found)
    {i : Issue} (hi : i ≠ documentStructure) (hcode : i.code ∉ Document.columnCodes) :
    (onLines i [(d.scan.extents.get p).start]).PointsInto d := by
  obtain ⟨line, hline⟩ := exists_line_start h hp hfound
  exact pointsInto_places hi (Document.pointsTo_line hline hcode)

theorem pointsInto_plainPart (h : d.Settled) {p : Part} (hp : p ≠ .header) :
    (Verdict.of (plainPart d p)).Only (PointsInto d) := by
  unfold plainPart
  dsimp only
  split_ifs with hheader hfound hempty
  · exact only_single (pointsInto_anywhere _)
  · exact only_single (pointsInto_anywhere _)
  · refine only_single (pointsInto_start h hp (by simpa using hfound) nofun ?_)
    cases p <;> decide
  · exact only_clean

theorem pointsInto_authors (h : d.Settled) : (authors (.text d)).Only (PointsInto d) :=
  List.forall_mem_append.mpr ⟨pointsInto_plainPart h (by decide), pointsInto_anywhereIf _ _⟩

theorem pointsInto_references (h : d.Settled) : (references (.text d)).Only (PointsInto d) := by
  simp only [references]
  split_ifs with hempty
  · simp only [Bool.and_eq_true] at hempty
    exact only_single (pointsInto_start h (p := .references) (by decide) hempty.1 nofun (by decide))
  · exact only_clean

theorem pointsInto_categories (h : d.Settled) : (categories (.text d)).Only (PointsInto d) := by
  simp only [categories]
  split_ifs with hcount hfound
  · exact only_clean
  · exact only_single (pointsInto_start h (p := .references) (by decide) hfound nofun
      (by simp [code, Document.columnCodes]))
  · exact only_single (pointsInto_anywhere _)

end Lines

section Columns

/-- Trimming the end of a line does not make it longer. -/
theorem length_dropRightWhile_le (q : Char → Bool) (t : Text) : (Text.dropRightWhile q t).length ≤ t.length := by
  rw [Text.dropRightWhile, List.length_reverse, ← @List.length_reverse _ t]
  exact (List.dropWhile_suffix q).length_le

theorem pointsTo_longLines :
    d.PointsTo "LINE_TOO_LONG" ((d.lines.filter isTooLong).map fun l => ⟨l.1, some (maxLineLength + 1)⟩) := by
  apply Document.pointsTo_of_marks
  · intro p hp
    obtain ⟨⟨num, line⟩, hl, rfl⟩ := List.mem_map.mp hp
    obtain ⟨hmem, hlong⟩ := List.mem_filter.mp hl
    have hlt : maxLineLength < (Text.dropRightWhile (· == '\x0c') line).length := of_decide_eq_true hlong
    exact ⟨line, _, hmem, rfl, Nat.le_add_left 1 _,
      Nat.lt_of_lt_of_le hlt (length_dropRightWhile_le _ line), trivial⟩
  · intro _
    rw [List.pairwise_map]
    exact List.Pairwise.filter _ (inOrder_numberFrom 1 _)

theorem pointsInto_lineLength : (lineLength (.text d)).Only (PointsInto d) := by
  simp only [lineLength, plainOnly]
  split
  · exact only_clean
  · exact only_single (pointsInto_places nofun pointsTo_longLines)

theorem pointsInto_inTurn {i : Issue} {ps : List Place} (hi : i ≠ documentStructure)
    (h : MarksInTurn (Document.shownBy i.code) d.lines ps) : (⟨i, some ps⟩ : Finding).PointsInto d :=
  pointsInto_places hi (Document.pointsTo_of_marks h.marks fun _ => h.rising)

theorem pointsInto_spacing (h : d.scan.items.Placed d.lines) : (spacing (.text d)).Only (PointsInto d) := by
  simp only [spacing, plainOnly]
  split_ifs
  · exact only_single (pointsInto_inTurn nofun h.wideLines)
  · exact only_clean

theorem pointsInto_hyphenation (h : d.scan.items.Placed d.lines) :
    (hyphenation (.text d)).Only (PointsInto d) := by
  simp only [hyphenation, plainOnly]
  split_ifs
  · exact only_clean
  · exact only_single (pointsInto_inTurn nofun h.brokenWords)

theorem pointsInto_codeBlocks (h : d.scan.items.Placed d.lines) :
    (codeBlocks (.text d)).Only (PointsInto d) := by
  simp only [codeBlocks, plainOnly]
  split_ifs
  · exact only_clean
  · exact only_single (pointsInto_inTurn nofun h.comments)

theorem pointsInto_requirements (h : d.scan.items.Placed d.lines) :
    (requirements (.text d)).Only (PointsInto d) := by
  have hplaces : d.PointsTo "BAD_KEYWORD_COMBINATION" (d.scan.items.combinations.map (·.2)) :=
    Document.pointsTo_of_marks h.combinations fun hcode => absurd hcode (by decide)
  refine List.forall_mem_append.mpr ⟨List.forall_mem_append.mpr ⟨List.forall_mem_append.mpr
    ⟨List.forall_mem_append.mpr ⟨pointsInto_anywhereIf _ _, pointsInto_anywhereIf _ _⟩,
      pointsInto_anywhereIf _ _⟩, ?_⟩, pointsInto_anywhereIf _ _⟩
  split_ifs
  · exact only_clean
  · exact only_single (pointsInto_places nofun hplaces)

end Columns

end Rules

namespace Rule

open Finding Verdict

variable {d : Plain.Document}

/-- What a rule finds in plain text points into it. -/
theorem pointsInto_examine (hparts : d.Settled) (hitems : d.scan.items.Placed d.lines) (s : Standard) (r : Rule) :
    (r.examine s (.text d)).Only (PointsInto d) := by
  cases r with
  | abstract => exact Rules.pointsInto_plainPart hparts (by decide)
  | introduction => exact Rules.pointsInto_plainPart hparts (by decide)
  | security => exact Rules.pointsInto_plainPart hparts (by decide)
  | iana => exact Rules.pointsInto_plainPart hparts (by decide)
  | authors => exact Rules.pointsInto_authors hparts
  | references => exact Rules.pointsInto_references hparts
  | categories => exact Rules.pointsInto_categories hparts
  | lineLength => exact Rules.pointsInto_lineLength
  | spacing => exact Rules.pointsInto_spacing hitems
  | hyphenation => exact Rules.pointsInto_hyphenation hitems
  | codeBlocks => exact Rules.pointsInto_codeBlocks hitems
  | requirements => exact Rules.pointsInto_requirements hitems
  | date => exact Rules.pointsInto_date s
  | category => exact Rules.pointsInto_category
  | copyright => exact Rules.pointsInto_copyright s
  | fileName => exact Rules.pointsInto_fileName
  | draftName => exact Rules.pointsInto_draftName
  | hostNames => exact Rules.pointsInto_hostNames
  | ipv4 => exact Rules.pointsInto_ipv4
  | ipv6 => exact Rules.pointsInto_ipv6
  | codeLicense => exact Rules.pointsInto_codeLicense
  | _ => exact only_clean

end Rule

namespace Review

variable {today : Date} {q : Request} {fileName : Option Text} {t : Text} {w : World} {r : Review}

theorem verdict_text (s : Standard) (online : Bool) (rule : Rule) :
    ((rule.verdict s online (.text (.ofText fileName t))).answer w).Only
      (Finding.PointsInto (.ofText fileName t)) := by
  have hexamine := rule.pointsInto_examine (Plain.Document.settled_ofText fileName t)
    (Plain.Document.placed_ofText fileName t) s
  rw [Rule.answer_verdict]
  split_ifs
  · refine hexamine.andThen ?_
    intro f hf
    exact Rules.pointsInto_of_none (rule.isGeneral_inquire _ w f hf).1
  · exact hexamine

/-- The places of all nits in plain text point into it, whatever the mode and whatever other sites tell. -/
theorem pointsTo_of_mem_nits (today : Date) (q : Request) (fileName : Option Text) (t : Text) (w : World)
    (h : ((Review.of today q (.text (.ofText fileName t))).run w .empty).1 = .ok r) :
    ∀ n ∈ r.nits, ∀ ps, n.places = some ps → (Plain.Document.ofText fileName t).PointsTo n.code ps := by
  intro n hn ps hps
  obtain ⟨rule, -, f, hf, hnit⟩ := exists_finding_of_run h hn
  obtain ⟨hcode, hplaces⟩ := Finding.code_places_of_nit? hnit
  rw [hcode]
  exact (verdict_text _ _ rule f hf ps (hplaces ▸ hps)).2

/-- A combination, a broken word and a comment, each where it stands. -/
theorem pointsTo_of_mem_nits_three :
    ∃ (t : Text) (r : Review),
      t = "Front\n\n\nTitle\n\nAbstract\n\n  It MUST not be an exam-\n   ple.\n   # No\n".toList ∧
      ((Review.of ⟨2024, 3, 4, by decide⟩ ⟨none, true, none⟩ (.text (.ofText none t))).run
        (fun _ => none) .empty).1 = .ok r ∧
      (r.nits.filterMap fun n => n.places.map (n.code, ·)) =
        [("BAD_KEYWORD_COMBINATION", [⟨8, some 6⟩]), ("HYPHENATED_LINE_BREAKS", [⟨8, some 25⟩]),
          ("COMMENT_OUT_OF_CODE_BLOCK", [⟨10, some 1⟩])] ∧
      ∀ n ∈ r.nits, ∀ ps, n.places = some ps → (Plain.Document.ofText none t).PointsTo n.code ps := by
  let t : Text := "Front\n\n\nTitle\n\nAbstract\n\n  It MUST not be an exam-\n   ple.\n   # No\n".toList
  have hplaces : ((Review.of ⟨2024, 3, 4, by decide⟩ ⟨none, true, none⟩ (.text (.ofText none t))).run
      (fun _ => none) .empty).1.map (fun r => r.nits.filterMap fun n => n.places.map (n.code, ·)) =
        .ok [("BAD_KEYWORD_COMBINATION", [⟨8, some 6⟩]), ("HYPHENATED_LINE_BREAKS", [⟨8, some 25⟩]),
          ("COMMENT_OUT_OF_CODE_BLOCK", [⟨10, some 1⟩])] := by
    decide +kernel
  cases hrun : ((Review.of ⟨2024, 3, 4, by decide⟩ ⟨none, true, none⟩ (.text (.ofText none t))).run
      (fun _ => none) .empty).1 with
  | error e =>
    rw [hrun] at hplaces
    cases hplaces
  | ok r =>
    rw [hrun] at hplaces
    exact ⟨t, r, rfl, hrun, Except.ok.inj hplaces, pointsTo_of_mem_nits _ _ none t _ hrun⟩

end Review

end DraftLint
