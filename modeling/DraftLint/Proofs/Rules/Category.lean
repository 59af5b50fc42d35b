import DraftLint.Proofs.Plain.HeaderDate
import DraftLint.Proofs.Plain.LeftColumn
import DraftLint.Rules.Succession

/-!
# The category, as it is written and as it is stored

A wording of a status is replaced by the name of the status when the front page is read.  The name is itself a wording of
that status and of no other, so that nothing is lost: what is made of the header does not depend on the replacement.
-/

namespace DraftLint

namespace Status

/-- The name of the status that a text implies. -/
def nameOf? (t : Text) : Option Text :=
  (ofText? t).map fun s => s.name.toList

/-- The rank of the status that a text implies. -/
def weightOf? (t : Text) : Option Nat :=
  (ofText? t).map weight

/-- A name is found by the pattern of its own status, and by none of those that are tried before. -/
theorem ofText?_name (s : Status) : ofText? s.name.toList = some s := by
  cases s <;> decide +kernel

theorem ofText?_trim (t : Text) : ofText? (Text.trim t) = ofText? t := by
  simp only [ofText?, Text.trim_trim]

/-- The name of a text's status implies the status that the text does. -/
theorem bind_nameOf?_ofText? (t : Text) : (nameOf? t).bind ofText? = ofText? t := by
  cases h : ofText? t with
  | none => rw [nameOf?, h]; rfl
  | some s => rw [nameOf?, h, Option.map_some, Option.bind_some, ofText?_name]

theorem bind_nameOf?_map {α : Type} (g : Status → α) (t : Text) :
    ((nameOf? t).bind fun n => (ofText? n).map g) = (ofText? t).map g := by
  rw [← bind_nameOf?_ofText? t, Option.map_bind]
  rfl

end Status

namespace Plain

open Status

namespace FrontPage

variable {t left : Text}

theorem statusText_eq (t : Text) : statusText t = (nameOf? t).getD t := by
  rw [statusText, nameOf?]
  cases ofText? t <;> rfl

/-- What is stored implies the same status as what was written. -/
theorem ofText?_statusText (t : Text) : ofText? (statusText t) = ofText? t := by
  rw [statusText]
  cases h : ofText? t with
  | none => exact h
  | some s => exact ofText?_name s

/-- Of a text that implies no status, nothing is changed. -/
theorem statusText_of_none (h : ofText? t = none) : statusText t = t := by
  rw [statusText, h]

/-- The left column of a line, or the line if it has no two. -/
def leftCell (line stripped : Text) : Text :=
  ((columns? line).map Prod.fst).getD stripped

/-- The left column of a header with these lines. -/
def leftColumn : List (Nat × Text) → List Text
  | [] => []
  | (_, line) :: rest =>
    leftCell (Text.trim line) (Text.trim line) :: rest.map fun l => leftCell (Text.trimRight l.2) (Text.trim l.2)

/-- What an entry of the left column has behind its colon, if it is one for the category.  An entry with the name of the
series of drafts is none. -/
def categoryIn? (left : Text) : Option Text :=
  let (label, value) := Text.cut ':' left
  if begins "Category" label && !draftSeries.occursIn left then some value else none

/-- What is written behind the last label of a category. -/
def writtenCategory? (run : List (Nat × Text)) : Option Text :=
  ((leftColumn run).filterMap categoryIn?).getLast?

/-- What begins with the label of the category does not begin with one of another initial. -/
theorem begins_eq_false {s : String} {b : Char} (h : begins "Category" t) (hs : s.toList.head? = some b)
    (hb : b ≠ 'C') : begins s t = false := by
  obtain ⟨tail, rfl⟩ := List.isPrefixOf_iff_prefix.mp h
  obtain ⟨rest, hrest⟩ := List.head?_eq_some_iff.mp hs
  rw [begins, Text.startsWith, hrest]
  exact Bool.and_eq_false_iff.mpr (.inl (beq_eq_false_iff_ne.mpr hb))

theorem begins_of_label (h : begins "Category" (Text.cut ':' left).1) : begins "Category" left := by
  have hlabel : (Text.cut ':' left).1 <+: left := List.takeWhile_prefix _
  exact List.isPrefixOf_iff_prefix.mpr ((List.isPrefixOf_iff_prefix.mp h).trans hlabel)

/-- Whatever entry is read, the category is the one that it has, or the one from before. -/
theorem category_readLeft (left : Text) (f : FrontPage) :
    (f.readLeft left).header.category =
      ((categoryIn? left).map fun v => statusText (Text.trim v)).or f.header.category := by
  rw [readLeft, categoryIn?]
  by_cases hlabel : begins "Category" (Text.cut ':' left).1 = true
  · have hrequest : begins "Request for Comments" left = false :=
      begins_eq_false (begins_of_label hlabel) rfl (by decide)
    have hintended : begins "Intended" (Text.cut ':' left).1 = false := begins_eq_false hlabel rfl (by decide)
    have hobsoletes : begins "Obsoletes" (Text.cut ':' left).1 = false := begins_eq_false hlabel rfl (by decide)
    have hupdates : begins "Updates" (Text.cut ':' left).1 = false := begins_eq_false hlabel rfl (by decide)
    cases hseries : draftSeries.occursIn left <;> simp [hlabel, hrequest, hintended, hobsoletes, hupdates]
  · simp only [hlabel, Bool.false_and, Bool.false_eq_true, if_false, Option.map_none, Option.none_or]
    split_ifs <;> try rfl
    split <;> rfl

/-- What is stored for the last of some entries that have a category. -/
def storedIn (cells : List Text) : Option Text :=
  (cells.filterMap categoryIn?).getLast?.map fun v => statusText (Text.trim v)

theorem storedIn_append (cells more : List Text) :
    storedIn (cells ++ more) = (storedIn more).or (storedIn cells) := by
  rw [storedIn, List.filterMap_append, List.getLast?_append, Option.map_or]
  rfl

theorem storedIn_singleton (left : Text) :
    storedIn [left] = (categoryIn? left).map fun v => statusText (Text.trim v) := by
  rw [storedIn, List.filterMap_cons]
  cases categoryIn? left <;> rfl

theorem category_readCell (left : Text) (f : FrontPage) :
    (f.readCell left).header.category = (storedIn [left]).or f.header.category := by
  rw [storedIn_singleton, readCell]
  split_ifs with hempty
  · rw [List.isEmpty_iff.mp hempty]
    rfl
  · exact category_readLeft left f

theorem category_readFirst (num : Nat) (stripped : Text) (f : FrontPage) :
    (f.readFirst num stripped).header.category = (storedIn [leftCell stripped stripped]).or f.header.category := by
  rw [storedIn_singleton, readFirst, leftCell]
  cases columns? stripped with
  | none =>
    dsimp only
    rw [category_readLeft]
    rfl
  | some columns =>
    dsimp only
    rw [category_readLeft]
    exact congrArg (Option.or _) (congrArg Standing.category (standing_readRight num columns.2 _))

theorem category_readLine (num : Nat) (line : Text) (f : FrontPage) :
    (f.readLine num line (Text.trim line)).header.category =
      (storedIn [leftCell (Text.trimRight line) (Text.trim line)]).or f.header.category := by
  rw [readLine_eq, leftCell]
  cases columns? (Text.trimRight line) with
  | none => exact (congrArg Standing.category (standing_readLoneDate _ _)).trans (category_readCell _ f)
  | some columns => exact (congrArg Standing.category (standing_readRight num columns.2 _)).trans (category_readCell _ f)

theorem category_foldl (lines : List (Nat × Text)) (f : FrontPage) :
    (lines.foldl (fun f l => f.readLine l.1 l.2 (Text.trim l.2)) f).header.category =
      (storedIn (lines.map fun l => leftCell (Text.trimRight l.2) (Text.trim l.2))).or f.header.category := by
  induction lines generalizing f with
  | nil => rfl
  | cons l lines ih =>
    rw [List.foldl_cons, ih, category_readLine, ← Option.or_assoc, ← storedIn_append]
    rfl

/-- The front page has the last category of its left column, by the name of the status if it implies one. -/
theorem category_ofRun (run : List (Nat × Text)) :
    (ofRun run).header.category = (writtenCategory? run).map fun v => statusText (Text.trim v) := by
  cases run with
  | nil => rfl
  | cons l rest =>
    obtain ⟨num, line⟩ := l
    have hstart : Scan.initial.page.header.category = none := rfl
    rw [ofRun, category_foldl, category_readFirst, hstart, Option.or_none, ← storedIn_append]
    rfl

end FrontPage

namespace Document

/-- The document with another category, or none, in its header. -/
def withCategory (d : Document) (category : Option Text) : Document :=
  { d with scan.page.header.category := category }

end Document
end Plain

namespace Rules

open Plain Status

variable {d : Plain.Document} {v : Option Text}

/-- A category that implies a status is none that is missing. -/
theorem filter_of_status {t : Text} (h : (ofText? t).isSome) : (some t).filter (!·.isEmpty) = some t := by
  cases t with
  | nil => cases h
  | cons c rest => rfl

/-- An RFC without a category, or with an empty one, lacks it. -/
theorem category_withCategory_of_none (hkind : d.kind = .rfc) (h : v.filter (!·.isEmpty) = none) :
    category (.text (d.withCategory v)) = .of [.anywhere (.missingCategory .text)] := by
  have hheader : (d.withCategory v).scan.page.header.category = v := rfl
  have hsame : (d.withCategory v).kind = .rfc := hkind
  rw [category, hsame, if_neg (not_not.mpr rfl), hheader, h]

/-- The category of an RFC is tried as a status. -/
theorem category_withCategory_of_some {t : Text} (hkind : d.kind = .rfc) (h : v.filter (!·.isEmpty) = some t) :
    category (.text (d.withCategory v)) =
      .of (if (ofText? t).isSome then [] else [.anywhere (.unknownCategory t)]) := by
  have hheader : (d.withCategory v).scan.page.header.category = v := rfl
  have hsame : (d.withCategory v).kind = .rfc := hkind
  rw [category, hsame, if_neg (not_not.mpr rfl), hheader, h]

/-- Every RFC has to have a category, and it has to imply a status. -/
theorem category_withCategory_eq_clean_iff :
    category (.text (d.withCategory v)) = .clean ↔ (d.kind = .rfc → ∃ t, v = some t ∧ (ofText? t).isSome) := by
  by_cases hkind : d.kind = .rfc
  · refine ⟨fun h _ => ?_, fun h => ?_⟩
    · cases hfilter : v.filter (!·.isEmpty) with
      | none =>
        rw [category_withCategory_of_none hkind hfilter] at h
        exact absurd (congrArg Verdict.findings h) (List.cons_ne_nil _ _)
      | some t =>
        refine ⟨t, (Option.filter_eq_some_iff.mp hfilter).1, ?_⟩
        rw [category_withCategory_of_some hkind hfilter] at h
        by_contra hstatus
        rw [if_neg hstatus] at h
        exact absurd (congrArg Verdict.findings h) (List.cons_ne_nil _ _)
    · obtain ⟨t, rfl, hstatus⟩ := h hkind
      rw [category_withCategory_of_some hkind (filter_of_status hstatus), if_pos hstatus]
      rfl
  · exact iff_of_true (congrArg Verdict.of (if_pos hkind)) fun h => absurd h hkind

/-- The verdict does not depend on whether a category was replaced by the name of its status. -/
theorem category_withCategory_map (d : Plain.Document) (v : Option Text) :
    category (.text (d.withCategory (v.map FrontPage.statusText))) = category (.text (d.withCategory v)) := by
  cases v with
  | none => rfl
  | some t =>
    cases hstatus : ofText? t with
    | none => rw [Option.map_some, FrontPage.statusText_of_none hstatus]
    | some s =>
      have hwritten : (ofText? t).isSome := hstatus ▸ rfl
      have hstored : (ofText? (FrontPage.statusText t)).isSome := by rwa [FrontPage.ofText?_statusText]
      have hleft : category (.text (d.withCategory (some (FrontPage.statusText t)))) = .clean :=
        category_withCategory_eq_clean_iff.mpr fun _ => ⟨_, rfl, hstored⟩
      have hright : category (.text (d.withCategory (some t))) = .clean :=
        category_withCategory_eq_clean_iff.mpr fun _ => ⟨_, rfl, hwritten⟩
      exact hleft.trans hright.symm

/-- Blanks around a category do not make it better or worse. -/
theorem category_withCategory_trim (d : Plain.Document) (v : Option Text) :
    category (.text (d.withCategory (v.map Text.trim))) = .clean ↔ category (.text (d.withCategory v)) = .clean := by
  rw [category_withCategory_eq_clean_iff, category_withCategory_eq_clean_iff]
  cases v with
  | none => rfl
  | some t => simp only [Option.map_some, Option.some.injEq, exists_eq_left', ofText?_trim]

/-- A text has the name of a status exactly if it has a rank, and the name has both again.  So for every text the front
page has the last category of its left column by the name of its status, and the verdict is the one on the category
as it is written; with the blanks before it, too, that is clean or not. -/
theorem category_ofText_of_written :
    (∀ t : Text, (nameOf? t).isSome = (weightOf? t).isSome ∧ (nameOf? t).bind weightOf? = weightOf? t ∧
      (nameOf? t).bind nameOf? = nameOf? t) ∧
    ∀ (fileName : Option Text) (text : Text),
      let d := Document.ofText fileName text
      let written := FrontPage.writtenCategory? (frontRun d.lines)
      let raw := written.map Text.trim
      d.scan.page.header.category = raw.map (fun v => (nameOf? v).getD v) ∧
        category (.text d) = category (.text (d.withCategory raw)) ∧
        (category (.text d) = .clean ↔ category (.text (d.withCategory written)) = .clean) := by
  refine ⟨fun t => ⟨?_, bind_nameOf?_map weight t, bind_nameOf?_map _ t⟩, fun fileName text => ?_⟩
  · rw [nameOf?, weightOf?, Option.isSome_map, Option.isSome_map]
  intro d written raw
  have hpage : d.scan.page = FrontPage.ofRun (frontRun d.lines) :=
    congrArg Front.page (Document.front_scan fileName text)
  have hstored : d.scan.page.header.category = raw.map FrontPage.statusText := by
    rw [hpage, FrontPage.category_ofRun, Option.map_map]
    rfl
  have hsame : d = d.withCategory (raw.map FrontPage.statusText) := by
    rw [← hstored]
    rfl
  have hverdict : category (.text d) = category (.text (d.withCategory raw)) := by
    calc category (.text d)
        = category (.text (d.withCategory (raw.map FrontPage.statusText))) := congrArg (fun d => category (.text d)) hsame
      _ = category (.text (d.withCategory raw)) := category_withCategory_map d raw
  refine ⟨?_, hverdict, ?_⟩
  · rw [hstored]
    exact congrArg raw.map (funext FrontPage.statusText_eq)
  · rw [hverdict]
    exact category_withCategory_trim d written

example : nameOf? " standards track ".toList = some "Proposed Standard".toList := by
  decide +kernel

end Rules
end DraftLint
