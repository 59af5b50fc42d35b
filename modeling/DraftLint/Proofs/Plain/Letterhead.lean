import DraftLint.Proofs.Plain.Front
import DraftLint.Proofs.Plain.Joining
import DraftLint.Proofs.Plain.LeftColumn

/-!
# Front pages in two columns

What is set out in rows of two columns is read off the front page again: the source and the entries below it from the
left column, and the authors, their organizations and the date from the right one.
-/

namespace DraftLint.Plain

open Calendar

/-- What a front page says. -/
structure Letterhead where
  source : Text
  notes : List Note
  bylines : List Byline
  date : Text

namespace Letterhead

/-- Each cell is of the kind that its place asks for. -/
structure Proper (l : Letterhead) : Prop where
  source : Bare l.source
  document : ∃ e ∈ l.notes, e.namesDocument
  notes : ∀ e ∈ l.notes, e.Proper
  bylines : ∀ b ∈ l.bylines, b.Proper
  date : (WrittenDate.read? l.date).isSome

/-- The cells of the rows say it, those of each column in turn.  Rows may be without a cell on the left from the second
one on, and without a cell on the right below the date. -/
structure SetOut (l : Letterhead) (rows : List Row) : Prop where
  laid : ∀ r ∈ rows, r.Laid
  first : ∀ r ∈ rows.head?, r.left ≠ []
  left : (rows.map Row.left).filter (fun t => !t.isEmpty) = l.source :: l.notes.map Note.text
  right : ∃ k, rows.map Row.right = l.bylines.flatMap Byline.cells ++ l.date :: List.replicate k []

instance (l : Letterhead) : Decidable l.Proper :=
  decidable_of_iff (Bare l.source ∧ (∃ e ∈ l.notes, e.namesDocument) ∧ (∀ e ∈ l.notes, e.Proper) ∧
      (∀ b ∈ l.bylines, b.Proper) ∧ (WrittenDate.read? l.date).isSome)
    ⟨fun ⟨source, document, notes, bylines, date⟩ => ⟨source, document, notes, bylines, date⟩,
      fun h => ⟨h.source, h.document, h.notes, h.bylines, h.date⟩⟩

/-- What the entries below the source tell, the later ones after the earlier. -/
def standing (l : Letterhead) : Standing :=
  l.notes.foldl (fun s e => e.tell s) ⟨none, none, [], [], none, none, none⟩

/-- The header of the document tells all of it, and nothing that no entry tells. -/
structure Recovered (l : Letterhead) (d : Document) : Prop where
  source : d.scan.page.header.source = some l.source
  authors : d.scan.page.header.authors = l.bylines.map Byline.author
  date : d.scan.page.header.date = WrittenDate.read? l.date
  standing : d.scan.page.standing = l.standing
  kind : some d.kind = l.standing.kind

/-- The rows one below the other. -/
def textOf (rows : List Row) : Text :=
  Text.join ['\n'] (rows.map Row.line)

variable {l : Letterhead} {rows : List Row} {rest : Text}

theorem SetOut.exists_first (h : l.SetOut rows) (hl : l.Proper) :
    ∃ r below, rows = r :: below ∧ r.left = l.source ∧ r.left ≠ [] ∧ r.right ≠ [] ∧
      (below.map Row.left).filter (fun t => !t.isEmpty) = l.notes.map Note.text := by
  cases rows with
  | nil => exact absurd h.left (by simp)
  | cons r below =>
    have hne : r.left ≠ [] := h.first r rfl
    have hleft := h.left
    rw [List.map_cons, List.filter_cons_of_pos (by simpa using hne)] at hleft
    obtain ⟨hsource, hnotes⟩ := List.cons.inj hleft
    refine ⟨r, below, rfl, hsource, hne, ?_, hnotes⟩
    obtain ⟨k, hright⟩ := h.right
    cases hb : l.bylines with
    | nil =>
      rw [hb] at hright
      have hdate : r.right = l.date := (List.cons.inj hright).1
      intro hnil
      have hsome := hl.date
      rw [← hdate, hnil] at hsome
      cases hsome
    | cons b bylines =>
      rw [hb] at hright
      have hname : r.right = b.name := (List.cons.inj hright).1
      rw [hname]
      exact (hl.bylines b (by rw [hb]; exact List.mem_cons_self)).name_ne_nil

/-- The page before any row is read, but with its source. -/
def blankPage (l : Letterhead) : FrontPage :=
  { Scan.initial.page with header := { Header.empty with source := some l.source } }

/-- The first row, too, is read like any other. -/
theorem SetOut.ofRun_eq (h : l.SetOut rows) (hl : l.Proper) :
    FrontPage.ofRun (Text.numberFrom 1 (rows.map Row.line)) = l.blankPage.readRows 1 rows := by
  obtain ⟨r, below, rfl, hsource, hne, hright, -⟩ := h.exists_first hl
  have hr := h.laid r List.mem_cons_self
  have hfirst : Scan.initial.page.readFirst 1 (Text.trim r.line) = l.blankPage.readLine 1 r.line (Text.trim r.line) := by
    rw [hr.readFirst_line hne hright, FrontPage.readLine_line_of_right hr hright, FrontPage.readCell,
      if_neg (by simpa using hne), FrontPage.readLeft_readRight, hsource]
    rfl
  rw [FrontPage.readRows_cons, ← hfirst]
  rfl

theorem lines_textOf (hlaid : ∀ r ∈ rows, r.Laid) (hne : rows ≠ []) (rest : Text) :
    Text.lines (Document.prepare (textOf rows ++ '\n' :: rest)) =
      rows.map Row.line ++ Text.lines (Document.prepare rest) := by
  have hplain : ∀ line ∈ rows.map Row.line, ∀ c ∈ line, c ∉ ['\n', '\r', '\t', '\x0c'] := by
    intro line hline c hc
    obtain ⟨r, hr, rfl⟩ := List.mem_map.mp hline
    exact (hlaid r hr).not_mem_line c hc
  have hlines : Text.lines (textOf rows) = rows.map Row.line :=
    Text.splitOn_join (by simpa using hne) fun line hline hmem => absurd (hplain line hline _ hmem) (by decide)
  have hchars : ∀ c ∈ textOf rows, c ≠ '\r' ∧ c ≠ '\t' := by
    intro c hc
    have hpiece : c = '\n' ∨ ∃ line ∈ Text.lines (textOf rows), c ∈ line := Text.exists_piece_of_mem hc
    rcases hpiece with rfl | ⟨line, hline, hc⟩
    · decide
    · rw [hlines] at hline
      have hcell := hplain line hline c hc
      simp only [List.mem_cons, not_or] at hcell
      exact ⟨hcell.2.1, hcell.2.2.1⟩
  have hreturn : '\r' ∉ textOf rows := fun hmem => (hchars _ hmem).1 rfl
  have htab : '\t' ∉ textOf rows := fun hmem => (hchars _ hmem).2 rfl
  rw [Document.lines_prepare_append hreturn, Document.prepare, Text.unifyLineEnds_eq_self hreturn, Text.expandTabs,
    Text.expandTabsFrom_eq_self htab, hlines]

/-- The rows are the front page. -/
theorem frontRun_textOf (hlaid : ∀ r ∈ rows, r.Laid) (hne : rows ≠ [])
    (hgap : ∀ line ∈ (Text.lines (Document.prepare rest)).head?, Text.isVisible line = false) (fileName : Option Text) :
    frontRun (Document.ofText fileName (textOf rows ++ '\n' :: rest)).lines = Text.numberFrom 1 (rows.map Row.line) := by
  have hlines : (Document.ofText fileName (textOf rows ++ '\n' :: rest)).lines =
      Text.numberFrom 1 (rows.map Row.line) ++
        Text.numberFrom (1 + (rows.map Row.line).length) (Text.lines (Document.prepare rest)) := by
    rw [← Text.numberFrom_append, ← lines_textOf hlaid hne rest]
    rfl
  have hdivided : Divided (Document.ofText fileName (textOf rows ++ '\n' :: rest)).lines
      (Text.numberFrom 1 (rows.map Row.line))
      (Text.numberFrom (1 + (rows.map Row.line).length) (Text.lines (Document.prepare rest))) := by
    refine ⟨⟨[], hlines, List.forall_mem_nil _⟩, fun l hl => ?_, fun l hl => ?_, fun hnil => ?_⟩
    · obtain ⟨-, hget⟩ := Text.mem_numberFrom_iff.mp hl
      obtain ⟨r, hr, hline⟩ := List.mem_map.mp (List.mem_of_getElem? hget)
      rw [← hline]
      exact (hlaid r hr).isVisible
    · cases hbehind : Text.lines (Document.prepare rest) with
      | nil =>
        rw [hbehind] at hl
        cases hl
      | cons line behind =>
        rw [hbehind] at hl hgap
        obtain rfl := Option.some.inj hl
        exact hgap line rfl
    · cases rows with
      | nil => exact absurd rfl hne
      | cons r rows => cases hnil
  exact hdivided.eq.1

theorem credits_readRows (hl : l.Proper) (h : l.SetOut rows) :
    ∃ stop, (l.blankPage.readRows 1 rows).credits =
      ⟨some l.source, l.bylines.map Byline.author, WrittenDate.read? l.date, stop⟩ := by
  obtain ⟨k, hright⟩ := h.right
  obtain ⟨w, hw⟩ := Option.isSome_iff_exists.mp hl.date
  rw [hw]
  exact FrontPage.credits_readRows h.laid hright hl.bylines hw rfl (List.forall_mem_nil _) (.inl rfl)

theorem standing_readRows (hl : l.Proper) (h : l.SetOut rows) :
    (l.blankPage.readRows 1 rows).standing = l.standing := by
  obtain ⟨r, below, rfl, hsource, hne, hright, hleft⟩ := h.exists_first hl
  obtain ⟨hr, hbelow⟩ := List.forall_mem_cons.mp h.laid
  obtain ⟨kind, hkind⟩ := FrontPage.standing_readLeft_of_bare hl.source l.blankPage
  have hfirst : (l.blankPage.readLine 1 r.line (Text.trim r.line)).standing = { l.blankPage.standing with kind } := by
    rw [FrontPage.readLine_line_of_right hr hright, FrontPage.standing_readRight, FrontPage.readCell,
      if_neg (by simpa using hne), hsource, hkind]
  rw [FrontPage.readRows_cons, FrontPage.standing_readRows hbelow hleft hl.notes, hfirst,
    Note.foldl_tell_of_names hl.document]
  rfl

theorem isSome_kind (hl : l.Proper) : l.standing.kind.isSome := by
  have hkept : ∀ (notes : List Note) (s : Standing), s.kind.isSome →
      (notes.foldl (fun s e => e.tell s) s).kind.isSome := by
    intro notes
    induction notes with
    | nil => exact fun s hs => hs
    | cons e notes ih =>
      intro s hs
      refine ih _ ?_
      cases e with
      | series => rfl
      | labelled label v => cases label <;> first | rfl | exact hs
  rw [standing, ← Note.foldl_tell_of_names hl.document _ (some .rfc)]
  exact hkept _ _ rfl

/-- What is set out in two columns in front of a gap is recovered, whatever comes behind the gap. -/
theorem recovered_ofText (hl : l.Proper) (hrows : l.SetOut rows)
    (hgap : ∀ line ∈ (Text.lines (Document.prepare rest)).head?, Text.isVisible line = false) (fileName : Option Text) :
    l.Recovered (Document.ofText fileName (textOf rows ++ '\n' :: rest)) := by
  obtain ⟨r, below, hcons, -⟩ := hrows.exists_first hl
  have hne : rows ≠ [] := hcons ▸ List.cons_ne_nil r below
  have hpage : (Document.ofText fileName (textOf rows ++ '\n' :: rest)).scan.page = l.blankPage.readRows 1 rows :=
    calc (Document.ofText fileName (textOf rows ++ '\n' :: rest)).scan.page
        = .ofRun (frontRun (Document.ofText fileName (textOf rows ++ '\n' :: rest)).lines) :=
          congrArg Front.page (Document.front_scan fileName _)
      _ = .ofRun (Text.numberFrom 1 (rows.map Row.line)) := by rw [frontRun_textOf hrows.laid hne hgap]
      _ = l.blankPage.readRows 1 rows := hrows.ofRun_eq hl
  obtain ⟨stop, hcredits⟩ := credits_readRows hl hrows
  have hstanding := standing_readRows hl hrows
  rw [← hpage] at hcredits hstanding
  obtain ⟨kind, hkind⟩ := Option.isSome_iff_exists.mp (isSome_kind hl)
  have hd : (Document.ofText fileName (textOf rows ++ '\n' :: rest)).scan.page.kind = some kind :=
    (congrArg Standing.kind hstanding).trans hkind
  refine ⟨congrArg Credits.source hcredits, congrArg Credits.authors hcredits, congrArg Credits.date hcredits,
    hstanding, ?_⟩
  have hof : (Document.ofText fileName (textOf rows ++ '\n' :: rest)).kind =
      (Document.ofText fileName (textOf rows ++ '\n' :: rest)).scan.page.kind.getD (Document.guessKind fileName) :=
    rfl
  rw [hkind, hof, hd, Option.getD_some]

/-- A front page with this source and this status. -/
def sample (source status : String) : Letterhead where
  source := source.toList
  notes := [.labelled .request " 9999".toList, .labelled .obsoletes " 1234, 5678".toList,
    .labelled .category (' ' :: status.toList), .labelled .expires " 5 September 2024".toList]
  bylines := [⟨"J. Doe".toList, "Example Inc".toList⟩, ⟨"R.S. Roe, Ed.".toList, "Other Org".toList⟩]
  date := "March 2024".toList

/-- Its rows, one without a cell on the left and one without a cell on the right. -/
def sampleRows (source status : String) : List Row :=
  [⟨source.toList, 8, "J. Doe".toList⟩,
    ⟨"Request for Comments: 9999".toList, 3, "Example Inc".toList⟩,
    ⟨"Obsoletes: 1234, 5678".toList, 2, "R.S. Roe, Ed.".toList⟩,
    ⟨[], 24, "Other Org".toList⟩,
    ⟨"Category: ".toList ++ status.toList, 5, "March 2024".toList⟩,
    ⟨"Expires: 5 September 2024".toList, 0, []⟩]

def sampleText (source status : String) : Text :=
  textOf (sampleRows source status) ++ "\n\n\n   A Title\n   A Name".toList

/-- A document on the standards track. -/
theorem recovered_ofText_sample :
    (sample "Network Working Group" "Standards Track").Proper ∧
    (sample "Network Working Group" "Standards Track").SetOut (sampleRows "Network Working Group" "Standards Track") ∧
    (∀ line ∈ (Text.lines (Document.prepare "\n\n   A Title\n   A Name".toList)).head?, Text.isVisible line = false) ∧
    (sample "Network Working Group" "Standards Track").Recovered
      (Document.ofText none (sampleText "Network Working Group" "Standards Track")) := by
  have hproper : (sample "Network Working Group" "Standards Track").Proper := by decide +kernel
  have hsetOut : (sample "Network Working Group" "Standards Track").SetOut
      (sampleRows "Network Working Group" "Standards Track") :=
    { laid := by decide +kernel
      first := by decide +kernel
      left := by decide +kernel
      right := ⟨1, by decide +kernel⟩ }
  have hgap : ∀ line ∈ (Text.lines (Document.prepare "\n\n   A Title\n   A Name".toList)).head?,
      Text.isVisible line = false := by decide
  exact ⟨hproper, hsetOut, hgap, recovered_ofText hproper hsetOut hgap none⟩

/-- A status that holds the name of the series makes a published document a draft, a tab in a cell is not kept, and a
source that begins like a label is read as one. -/
theorem not_recovered :
    ((sample "Network Working Group" "Internet Draft").SetOut (sampleRows "Network Working Group" "Internet Draft") ∧
      ¬(sample "Network Working Group" "Internet Draft").Recovered
        (Document.ofText none (sampleText "Network Working Group" "Internet Draft"))) ∧
    ((sample "Network\tWorking Group" "Standards Track").Proper ∧
      ¬(sample "Network\tWorking Group" "Standards Track").Recovered
        (Document.ofText none (sampleText "Network\tWorking Group" "Standards Track"))) ∧
    ((sample "Intended Audience" "Standards Track").SetOut (sampleRows "Intended Audience" "Standards Track") ∧
      ¬(sample "Intended Audience" "Standards Track").Recovered
        (Document.ofText none (sampleText "Intended Audience" "Standards Track"))) := by
  refine ⟨⟨⟨by decide +kernel, by decide +kernel, by decide +kernel, 1, by decide +kernel⟩, fun h => ?_⟩,
    ⟨by decide +kernel, fun h => ?_⟩,
    ⟨by decide +kernel, by decide +kernel, by decide +kernel, 1, by decide +kernel⟩, fun h => ?_⟩
  · have hdraft : (Document.ofText none (sampleText "Network Working Group" "Internet Draft")).kind = .draft := by
      decide +kernel
    have hkind := h.kind
    rw [hdraft] at hkind
    cases hkind
  · have htab : (Document.ofText none (sampleText "Network\tWorking Group" "Standards Track")).scan.page.header.source =
        some "Network Working Group".toList := by
      decide +kernel
    have hsource := h.source
    rw [htab] at hsource
    exact absurd hsource (by decide)
  · have hintended :
        (Document.ofText none (sampleText "Intended Audience" "Standards Track")).scan.page.standing.intendedStatus =
          some [] := by
      decide +kernel
    rw [h.standing] at hintended
    cases hintended

end Letterhead
end DraftLint.Plain
