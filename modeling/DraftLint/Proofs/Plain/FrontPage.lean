import DraftLint.Proofs.Calendar
import DraftLint.Proofs.Plain.Extents

/-!
# Dates in plain text

The date of a document is one that was read from its front page, so that it names a day and can be
completed.  The year of a copyright notice is a numeral.
-/

namespace DraftLint.Plain

open Calendar

/-- The date of the front page, if there is one, was read from a text. -/
def FrontPage.Dated (f : FrontPage) : Prop :=
  ∀ w, f.header.date = some w → ∃ t, WrittenDate.read? t = some w

namespace FrontPage

variable {f : FrontPage}

theorem Dated.of_date_eq {f' : FrontPage} (h : f.Dated) (he : f'.header.date = f.header.date) :
    f'.Dated := by
  intro w hw
  exact h w (he ▸ hw)

theorem date_readLeft (left : Text) (f : FrontPage) : (f.readLeft left).header.date = f.header.date := by
  unfold readLeft
  dsimp only
  split_ifs
  case pos => rfl
  all_goals first | rfl | (split <;> rfl)

theorem Dated.readLeft (h : f.Dated) (left : Text) : (f.readLeft left).Dated :=
  h.of_date_eq (date_readLeft left f)

theorem dated_of_read? {w : WrittenDate} {t : Text} (hw : WrittenDate.read? t = some w) :
    Dated { f with header := { f.header with date := some w } } := by
  intro w' hw'
  obtain rfl := Option.some.inj hw'
  exact ⟨t, hw⟩

theorem Dated.readRight (h : f.Dated) (num : Nat) (right : Text) : (f.readRight num right).Dated := by
  unfold FrontPage.readRight
  split_ifs
  case pos => exact h
  all_goals
    split
    · rename_i w hw
      exact dated_of_read? hw
    · exact h.of_date_eq rfl

theorem Dated.readLoneDate (h : f.Dated) (left : Text) : (f.readLoneDate left).Dated := by
  unfold FrontPage.readLoneDate
  split_ifs
  · exact h
  · split
    · rename_i w hw
      exact dated_of_read? hw
    · exact h

theorem Dated.readFirst (h : f.Dated) (num : Nat) (stripped : Text) :
    (f.readFirst num stripped).Dated := by
  unfold FrontPage.readFirst
  have hsource : ∀ source, Dated { f with header := { f.header with source := some source } } :=
    fun source => h.of_date_eq rfl
  split
  · exact ((hsource _).readRight num _).readLeft _
  · exact (hsource _).readLeft _

theorem Dated.readLine (h : f.Dated) (num : Nat) (line stripped : Text) :
    (f.readLine num line stripped).Dated := by
  unfold FrontPage.readLine
  generalize (columns? (Text.trimRight line)).getD (stripped, []) = columns
  obtain ⟨left, right⟩ := columns
  have hleft : Dated (if left.isEmpty then f else f.readLeft left) := by
    split_ifs
    · exact h
    · exact h.readLeft left
  dsimp only
  generalize (if left.isEmpty then f else f.readLeft left) = f' at hleft ⊢
  split_ifs
  · exact hleft.readRight num right
  · exact hleft.readLoneDate left
  · exact hleft

end FrontPage

namespace Scan

theorem dated_initial : initial.page.Dated := by
  intro w hw
  cases hw

theorem page_closePart (num : Nat) (s : Scan) : (s.closePart num).page = s.page := by
  unfold closePart
  split <;> rfl

theorem page_readBody {num : Nat} {line stripped : Text} {s : Scan} (h : s.part ≠ some .header) :
    (s.readBody num line stripped).page = s.page := by
  have hw := congrArg Scan.page (withoutParts_readBody num line stripped h)
  exact hw

theorem Reached.dated {ls : List Text} {s : Scan} (h : Reached ls s) : s.page.Dated := by
  induction h with
  | start => exact dated_initial
  | @line ls s h line next ih =>
    have hr := reads_readLine (ls.length + 1) line next s
    generalize s.readLine (ls.length + 1) line next = s' at hr ⊢
    cases hr with
    | hidden hl count => exact ih
    | first hl hf => exact ih.readFirst _ _
    | title hl hf hc hn => exact ih
    | front hl hf hc hn => exact ih.readLine _ _ _
    | slug hl hc ht hn => exact ih
    | body hl hc hn =>
      rw [page_readBody (h.fronted.note (ls.length + 1) line (Text.trim line) next).part_ne_header]
      exact ih

end Scan

namespace Items

open Pattern

theorem encloses_copyright :
    Layout.copyright.Encloses fun n p => n = 1 ∧ p = times 4 (one CharSet.decimal) := by
  simp [Layout.copyright, all, lit, literal, Encloses, times]

theorem captures_copyright : Layout.copyright.Captures 1 := by
  simp [Layout.copyright, all, Captures]

/-- The year of the copyright notice, where a year that is no numeral is a failure. -/
def attemptCopyrightYear (t : Text) : Except Failure (Option Nat) :=
  match Layout.copyright.search? t with
  | none => .ok none
  | some m => match Text.natural? ((m.group? 1).getD []) with
    | some year => .ok (some year)
    | none => .error .notANumber

theorem attemptCopyrightYear_eq (t : Text) : attemptCopyrightYear t = .ok (copyrightYear? t) := by
  unfold attemptCopyrightYear copyrightYear?
  cases hm : Layout.copyright.search? t with
  | none => rfl
  | some m =>
    obtain ⟨c, v, hv⟩ := reads_of_searchFrom hm
    obtain ⟨year, hyear⟩ := exists_group? captures_copyright hv
    obtain ⟨p, r, r', hp, hread⟩ := group?_of_reads encloses_copyright hv hyear
    obtain ⟨-, rfl⟩ := hp
    obtain ⟨hlength, hall⟩ := hread.of_times_one
    have hnumeral : year.IsNumeral :=
      ⟨List.ne_nil_of_length_pos (by omega), hall, hlength ▸ by decide⟩
    obtain ⟨n, hn, -⟩ := hnumeral.natural?
    simp only [hyear, hn, Option.getD_some, Option.bind_eq_bind, Option.bind_some]

end Items

/-- The date of a document can be completed on any day. -/
theorem Document.exists_complete_ofText {fileName : Option Text} {t : Text} {w : WrittenDate}
    (h : (ofText fileName t).scan.page.header.date = some w) (today : Date) :
    ∃ month date, monthNumber w.month = .ok (some month) ∧
      Date.complete today (some w.year) (some (month : Int)) w.day = .ok (some date) := by
  have hdated := (Scan.Reached.readLines (Text.lines (prepare t))).dated
  have hpage : (ofText fileName t).scan.page =
      (Scan.initial.readLines (Text.numberFrom 1 (Text.lines (prepare t)))).page :=
    Scan.page_closePart _ _
  rw [hpage] at h
  obtain ⟨u, hu⟩ := hdated w h
  obtain ⟨d, hd⟩ := WrittenDate.exists_date_of_read? hu
  exact WrittenDate.exists_complete hd today

end DraftLint.Plain
