import DraftLint.Proofs.Calendar.Reading
import DraftLint.Proofs.Plain.Columns
import DraftLint.Proofs.Plain.FrontPage
import DraftLint.Proofs.Statement

/-!
# The right column

The right column lists authors, each with an organization below, and ends in the date.  It is read without regard to
the left one, and rows that follow each other leave no author without the organization below.
-/

namespace DraftLint.Plain

open Calendar

/-- What the front page tells besides the entries on the left. -/
structure Credits where
  source : Option Text
  authors : List Author
  date : Option WrittenDate
  lastRightLine : Nat

namespace FrontPage

variable {f : FrontPage} {num last : Nat} {right name : Text} {source : Option Text} {w : WrittenDate}
  {settled : List Author}

def credits (f : FrontPage) : Credits :=
  ⟨f.header.source, f.header.authors, f.header.date, f.lastRightLine⟩

theorem credits_readLeft (left : Text) (f : FrontPage) : (f.readLeft left).credits = f.credits := by
  unfold readLeft
  dsimp only
  split_ifs
  case pos => rfl
  all_goals first | rfl | (split <;> rfl)

/-- The authors who wait for an organization are those behind the last one who has one. -/
theorem affiliate_append {waiting : List Author} (hsettled : ∀ a ∈ settled, a.organization.isSome)
    (hwaiting : ∀ a ∈ waiting, a.organization = none) (organization : Text) :
    affiliate organization (settled ++ waiting) =
      settled ++ waiting.map fun a => { a with organization := some organization } := by
  have hnone : ∀ a ∈ waiting.reverse, a.organization.isNone := by
    intro a ha
    rw [hwaiting a (List.mem_reverse.mp ha)]
    rfl
  have hstop : settled.reverse.takeWhile (·.organization.isNone) = [] := by
    rw [List.takeWhile_eq_nil_iff]
    intro hpos
    have ha := hsettled _ (List.mem_reverse.mp (List.getElem_mem hpos))
    rw [Option.isNone_iff_eq_none, ← Option.not_isSome_iff_eq_none, not_not]
    exact ha
  have hlength : ((settled ++ waiting).reverse.takeWhile (·.organization.isNone)).length = waiting.length := by
    rw [List.reverse_append, List.takeWhile_append_of_pos hnone, hstop, List.append_nil, List.length_reverse]
  simp only [affiliate, hlength, List.length_append, Nat.add_sub_cancel, List.take_left, List.drop_left]

/-- Only the last author is without an organization. -/
theorem affiliate_concat (h : ∀ a ∈ settled, a.organization.isSome) (name organization : Text) :
    affiliate organization (settled ++ [⟨name, none⟩]) = settled ++ [⟨name, some organization⟩] :=
  affiliate_append h (List.forall_mem_singleton.mpr rfl) organization

theorem credits_readCell (left : Text) (f : FrontPage) : (f.readCell left).credits = f.credits := by
  rw [readCell]
  split_ifs
  · rfl
  · exact credits_readLeft left f

theorem readRight_of_dated (h : f.header.date.isSome) (num : Nat) (right : Text) : f.readRight num right = f := by
  rw [readRight, if_pos h]

theorem readLoneDate_of_dated (h : f.header.date.isSome) (left : Text) : f.readLoneDate left = f := by
  rw [readLoneDate, if_pos h]

/-- The same entries on the left with other credits. -/
def withCredits (c : Credits) (f : FrontPage) : FrontPage :=
  { f with
    header := { f.header with source := c.source, authors := c.authors, date := c.date }
    lastRightLine := c.lastRightLine }

@[simp] theorem credits_withCredits (c : Credits) (f : FrontPage) : (f.withCredits c).credits = c :=
  rfl

/-- The authors after a name or an organization on a line of the right column. -/
def enter (num : Nat) (right : Text) (last : Nat) (authors : List Author) : List Author :=
  if Layout.authorName.leads right then
    (if !authors.isEmpty && num > last + 1 then affiliate [] authors else authors) ++ [⟨right, none⟩]
  else if !authors.isEmpty then affiliate right authors
  else authors ++ [⟨right, none⟩]

theorem readRight_date (hf : f.header.date = none) (hw : WrittenDate.read? right = some w) (num : Nat) :
    f.readRight num right = f.withCredits { f.credits with date := some w } := by
  simp [readRight, hf, hw, withCredits, credits]

theorem readRight_enter (hf : f.header.date = none) (hw : WrittenDate.read? right = none) (num : Nat) :
    f.readRight num right =
      f.withCredits { f.credits with
        authors := enter num right f.credits.lastRightLine f.credits.authors
        lastRightLine := num } := by
  simp only [readRight, hf, hw, enter, credits, Option.isSome_none, Bool.false_eq_true, if_false]
  split_ifs <;> simp [withCredits, addAuthor, setOrganization, hf]

theorem credits_readRight_date (hf : f.credits = ⟨source, settled, none, last⟩)
    (hw : WrittenDate.read? right = some w) (num : Nat) :
    (f.readRight num right).credits = ⟨source, settled, some w, last⟩ := by
  rw [readRight_date (congrArg Credits.date hf) hw, credits_withCredits, hf]

/-- A name on the next line does not end the affiliation of the authors before. -/
theorem credits_readRight_name (hf : f.credits = ⟨source, settled, none, last⟩) (hname : Layout.authorName.leads right)
    (hw : WrittenDate.read? right = none) (hnum : settled = [] ∨ num ≤ last + 1) :
    (f.readRight num right).credits = ⟨source, settled ++ [⟨right, none⟩], none, num⟩ := by
  have hgap : (!settled.isEmpty && decide (num > last + 1)) = false := by
    rw [Bool.and_eq_false_iff, Bool.not_eq_false', List.isEmpty_iff, decide_eq_false_iff_not, not_lt]
    exact hnum
  have henter : enter num right last settled = settled ++ [⟨right, none⟩] := by
    simp [enter, hname, hgap]
  rw [readRight_enter (congrArg Credits.date hf) hw, credits_withCredits, hf, henter]

theorem credits_readRight_organization (hf : f.credits = ⟨source, settled ++ [⟨name, none⟩], none, last⟩)
    (hname : Layout.authorName.leads right = false) (hw : WrittenDate.read? right = none)
    (hsettled : ∀ a ∈ settled, a.organization.isSome) (num : Nat) :
    (f.readRight num right).credits = ⟨source, settled ++ [⟨name, some right⟩], none, num⟩ := by
  have henter : enter num right last (settled ++ [⟨name, none⟩]) = settled ++ [⟨name, some right⟩] := by
    simp [enter, hname, affiliate_concat hsettled]
  rw [readRight_enter (congrArg Credits.date hf) hw, credits_withCredits, hf, henter]

/-- The right column is read without regard to the left one. -/
theorem exists_withCredits {g : FrontPage} (h : g.credits = f.credits) (num : Nat) (right : Text) :
    ∃ c, f.readRight num right = f.withCredits c ∧ g.readRight num right = g.withCredits c := by
  have hdate : g.header.date = f.header.date := congrArg Credits.date h
  cases hf : f.header.date with
  | some w =>
    refine ⟨f.credits, readRight_of_dated (by rw [hf]; rfl) num right, ?_⟩
    rw [← h]
    exact readRight_of_dated (by rw [hdate, hf]; rfl) num right
  | none =>
    have hg : g.header.date = none := hdate.trans hf
    cases hw : WrittenDate.read? right with
    | some w => exact ⟨_, readRight_date hf hw num, h ▸ readRight_date hg hw num⟩
    | none => exact ⟨_, readRight_enter hf hw num, h ▸ readRight_enter hg hw num⟩

theorem readLeft_withCredits (left : Text) (c : Credits) (f : FrontPage) :
    (f.withCredits c).readLeft left = (f.readLeft left).withCredits c := by
  unfold readLeft
  dsimp only
  split_ifs
  case pos => rfl
  all_goals first | rfl | (split <;> rfl)

/-- Of the two cells of a row, it does not matter which is read first. -/
theorem readLeft_readRight (left right : Text) (num : Nat) (f : FrontPage) :
    (f.readRight num right).readLeft left = (f.readLeft left).readRight num right := by
  obtain ⟨c, hf, hg⟩ := exists_withCredits (credits_readLeft left f) num right
  rw [hf, hg, readLeft_withCredits]

end FrontPage

open Pattern in
/-- A date has digits, and a name has none. -/
theorem read?_of_authorName {t : Text} (h : Layout.authorName.leads t) : WrittenDate.read? t = none := by
  rw [Option.eq_none_iff_forall_ne_some]
  intro w hw
  obtain ⟨before, month, after, ht, -, -, -, c, hc, hfigure⟩ := WrittenDate.hasMonth_of_read? hw
  have hdigit : CharSet.digit c := Citation.digit_of_figure hfigure
  have hmem : c ∈ t := by simp [ht, hc]
  obtain ⟨m, hm⟩ := Option.isSome_iff_exists.mp h
  obtain ⟨u, hread⟩ := reads_of_match? hm
  have hu : c ∉ u :=
    hread.not_mem (Citation.forall_digit (p := fun c => Layout.authorName.avoids c) (by decide) hdigit)
  have hrest : t = u ++ m.stop.rest := hread.advance.1
  rw [hrest, List.mem_append] at hmem
  have hlast := hmem.resolve_left hu
  rcases hread.rest_of_endsLine rfl with hnil | hnewline
  · rw [hnil] at hlast
    cases hlast
  · rw [hnewline, List.mem_singleton] at hlast
    rw [hlast] at hdigit
    cases hdigit

/-- An author in the right column, with an organization below. -/
structure Byline where
  name : Text
  organization : Text

namespace Byline

def cells (b : Byline) : List Text :=
  [b.name, b.organization]

def author (b : Byline) : Author :=
  ⟨b.name, some b.organization⟩

/-- The name looks like one, and the organization looks neither like a name nor like a date. -/
structure Proper (b : Byline) : Prop where
  name : Layout.authorName.leads b.name
  organization_ne_nil : b.organization ≠ []
  organization : Layout.authorName.leads b.organization = false
  undated : WrittenDate.read? b.organization = none

instance (b : Byline) : Decidable b.Proper :=
  decidable_of_iff (Layout.authorName.leads b.name ∧ b.organization ≠ [] ∧
      Layout.authorName.leads b.organization = false ∧ WrittenDate.read? b.organization = none)
    ⟨fun ⟨name, ne_nil, organization, undated⟩ => ⟨name, ne_nil, organization, undated⟩,
      fun h => ⟨h.name, h.organization_ne_nil, h.organization, h.undated⟩⟩

theorem Proper.name_ne_nil {b : Byline} (h : b.Proper) : b.name ≠ [] := by
  intro hnil
  have hname := h.name
  rw [hnil] at hname
  cases hname

end Byline

namespace FrontPage

/-- Rows are read line by line. -/
def readRows (num : Nat) (rows : List Row) (f : FrontPage) : FrontPage :=
  (Text.numberFrom num (rows.map Row.line)).foldl (fun f l => f.readLine l.1 l.2 (Text.trim l.2)) f

variable {f : FrontPage} {r : Row} {rows : List Row} {num last k : Nat} {date : Text} {source : Option Text}
  {w : WrittenDate} {settled : List Author} {bylines : List Byline}

theorem readRows_cons (num : Nat) (r : Row) (rows : List Row) (f : FrontPage) :
    f.readRows num (r :: rows) = (f.readLine num r.line (Text.trim r.line)).readRows (num + 1) rows :=
  rfl

theorem readLine_line_of_right (h : r.Laid) (hr : r.right ≠ []) (num : Nat) (f : FrontPage) :
    f.readLine num r.line (Text.trim r.line) = (f.readCell r.left).readRight num r.right := by
  rw [h.readLine_line, List.isEmpty_eq_false_iff.mpr hr]
  rfl

/-- The date ends the column. -/
theorem credits_readRows_of_dated (hrows : ∀ r ∈ rows, r.Laid) (hf : f.header.date.isSome) :
    (f.readRows num rows).credits = f.credits := by
  induction rows generalizing f num with
  | nil => rfl
  | cons r rows ih =>
    obtain ⟨hr, hrows⟩ := List.forall_mem_cons.mp hrows
    have hcell := credits_readCell r.left f
    have hdated : (f.readCell r.left).header.date.isSome := (congrArg (fun c : Credits => c.date.isSome) hcell).trans hf
    have hstep : f.readLine num r.line (Text.trim r.line) = f.readCell r.left := by
      rw [hr.readLine_line, readRight_of_dated hdated, readLoneDate_of_dated hdated, ite_self]
    rw [readRows_cons, hstep, ih hrows hdated, hcell]

/-- The column is read from any row on at which every author before has an organization. -/
theorem credits_readRows (hrows : ∀ r ∈ rows, r.Laid)
    (hright : rows.map Row.right = bylines.flatMap Byline.cells ++ date :: List.replicate k [])
    (hbylines : ∀ b ∈ bylines, b.Proper) (hdate : WrittenDate.read? date = some w)
    (hf : f.credits = ⟨source, settled, none, last⟩) (hsettled : ∀ a ∈ settled, a.organization.isSome)
    (hnum : settled = [] ∨ num ≤ last + 1) :
    ∃ stop, (f.readRows num rows).credits = ⟨source, settled ++ bylines.map Byline.author, some w, stop⟩ := by
  induction bylines generalizing rows f num settled last with
  | nil =>
    obtain ⟨r, rows, rfl, rfl, -⟩ := List.map_eq_cons_iff.mp hright
    obtain ⟨hr, hrows⟩ := List.forall_mem_cons.mp hrows
    have hne : r.right ≠ [] := by
      intro hnil
      rw [hnil] at hdate
      cases hdate
    have hstep := credits_readRight_date ((credits_readCell r.left f).trans hf) hdate num
    have hdated : ((f.readCell r.left).readRight num r.right).header.date.isSome :=
      congrArg (fun c : Credits => c.date.isSome) hstep
    refine ⟨last, ?_⟩
    rw [readRows_cons, readLine_line_of_right hr hne, credits_readRows_of_dated hrows hdated, hstep, List.map_nil,
      List.append_nil]
  | cons b bylines ih =>
    obtain ⟨hb, hbylines⟩ := List.forall_mem_cons.mp hbylines
    obtain ⟨r, below, rfl, hname, hright⟩ := List.map_eq_cons_iff.mp hright
    obtain ⟨r', rows, rfl, horganization, hright⟩ := List.map_eq_cons_iff.mp hright
    obtain ⟨hr, hrows⟩ := List.forall_mem_cons.mp hrows
    obtain ⟨hr', hrows⟩ := List.forall_mem_cons.mp hrows
    have hne : r.right ≠ [] := hname ▸ hb.name_ne_nil
    have hne' : r'.right ≠ [] := horganization ▸ hb.organization_ne_nil
    have hfirst := credits_readRight_name ((credits_readCell r.left f).trans hf) (hname ▸ hb.name)
      (hname ▸ read?_of_authorName hb.name) hnum
    have hsecond := credits_readRight_organization ((credits_readCell r'.left _).trans hfirst)
      (horganization ▸ hb.organization) (horganization ▸ hb.undated) hsettled (num + 1)
    have hmore : ∀ a ∈ settled ++ [(⟨r.right, some r'.right⟩ : Author)], a.organization.isSome :=
      List.forall_mem_append.mpr ⟨hsettled, List.forall_mem_singleton.mpr rfl⟩
    obtain ⟨stop, hstop⟩ := ih hrows hright hbylines hsecond hmore (.inr (Nat.le_refl _))
    have hauthor : Byline.author b = ⟨r.right, some r'.right⟩ := by rw [hname, horganization]; rfl
    refine ⟨stop, ?_⟩
    rw [readRows_cons, readRows_cons, readLine_line_of_right hr hne, readLine_line_of_right hr' hne', hstop,
      List.map_cons, hauthor, List.append_assoc, List.singleton_append]

end FrontPage
end DraftLint.Plain
