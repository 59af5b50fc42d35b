import DraftLint.Proofs.Plain.FrontLines
import DraftLint.Proofs.Plain.FrontPage

/-!
# What stands in front of the body

The header, the title and the name of a document are those of its runs of lines, at any time while a text is read.
No other line has a say in them.
-/

namespace DraftLint.Plain

/-- The front page as the lines of the run give it, read in turn. -/
def FrontPage.ofRun : List (Nat × Text) → FrontPage
  | [] => Scan.initial.page
  | (num, line) :: rest =>
    rest.foldl (fun f l => f.readLine l.1 l.2 (Text.trim l.2)) (Scan.initial.page.readFirst num (Text.trim line))

/-- The next line of the run is read after those before it. -/
theorem FrontPage.ofRun_concat {run : List (Nat × Text)} (h : run ≠ []) (l : Nat × Text) :
    FrontPage.ofRun (run ++ [l]) = (FrontPage.ofRun run).readLine l.1 l.2 (Text.trim l.2) := by
  obtain ⟨first, rest, rfl⟩ := List.exists_cons_of_ne_nil h
  simp [FrontPage.ofRun, List.foldl_append]

/-- What a document shows before its body. -/
structure Front where
  header : Extent
  page : FrontPage
  title : Option Text
  titleLine : Nat
  slug : Option Text
  slugLine : Nat

/-- What the lines of the run say, as long as nothing comes behind it. -/
def Front.ofRun (run : List (Nat × Text)) : Front where
  header := ⟨(run.head?.map (·.1)).getD 0, (run.getLast?.map (·.1)).getD 0, false⟩
  page := .ofRun run
  title := none
  titleLine := 0
  slug := none
  slugLine := 0

/-- What the runs of these lines say: the header goes from the first line of the run to the last one, and it is
closed by the title. -/
def Front.ofLines (lines : List (Nat × Text)) : Front where
  header :=
    { start := ((frontRun lines).head?.map (·.1)).getD 0
      stop := ((frontRun lines).getLast?.map (·.1)).getD 0
      closed := (titleLine? lines).isSome }
  page := .ofRun (frontRun lines)
  title := (titleLine? lines).map fun l => Text.trim l.2
  titleLine := ((titleLine? lines).map (·.1)).getD 0
  slug := (nameLine? lines).map fun l => Text.trim l.2
  slugLine := ((nameLine? lines).map (·.1)).getD 0

namespace Front

variable {lines : List (Nat × Text)} {l k : Nat × Text} {n : Nat}

theorem ofLines_concat_hidden (hl : Text.isVisible l.2 = false) : ofLines (lines ++ [l]) = ofLines lines := by
  obtain ⟨hfront, htitle⟩ : frontRun (lines ++ [l]) = frontRun lines ∧ titleLine? (lines ++ [l]) = titleLine? lines :=
    frontRun_concat_hidden hl
  have hname : nameLine? (lines ++ [l]) = nameLine? lines := by
    simp only [nameLine?, htitle, visibleLine?_concat, hl, Bool.false_eq_true, and_false, if_false, Option.or_none]
  simp only [ofLines, hfront, htitle, hname]

theorem ofLines_of_behind_nil (h : behindFront lines = []) : ofLines lines = .ofRun (frontRun lines) := by
  simp [ofLines, ofRun, nameLine?, titleLine?_of_behind_nil h]

theorem ofLines_concat_run (h : behindFront lines = []) (hl : Text.isVisible l.2) :
    ofLines (lines ++ [l]) = .ofRun (frontRun lines ++ [l]) := by
  obtain ⟨hfront, htitle⟩ := frontRun_concat_visible h hl
  simp [ofLines, ofRun, nameLine?, hfront, htitle]

/-- The next line of the run moves the end of the header and is read after those before it. -/
theorem ofRun_concat {run : List (Nat × Text)} (h : run ≠ []) (l : Nat × Text) :
    ofRun (run ++ [l]) =
      { ofRun run with
        header := { (ofRun run).header with stop := l.1 }
        page := (ofRun run).page.readLine l.1 l.2 (Text.trim l.2) } := by
  have hhead : (run ++ [l]).head? = run.head? := List.head?_append_of_ne_nil _ h
  simp [ofRun, FrontPage.ofRun_concat h, hhead]

theorem ofLines_concat_title (hb : Text.Below n lines) (h : behindFront lines ≠ []) (hnone : titleLine? lines = none)
    (hl : Text.isVisible l.2) (hn : n ≤ l.1) :
    ofLines (lines ++ [l]) =
      { ofLines lines with
        header := { (ofLines lines).header with closed := true }
        title := some (Text.trim l.2)
        titleLine := l.1 } := by
  obtain ⟨hfront, htitle⟩ := frontRun_concat_behind h l
  have hname : visibleLine? (l.1 + 1) (lines ++ [l]) = none := by
    rw [visibleLine?_concat, visibleLine?_eq_none hb (by omega), if_neg (by omega), Option.or_none]
  rw [hnone, if_pos hl, Option.none_or] at htitle
  simp [ofLines, nameLine?, hfront, htitle, hnone, hname]

theorem ofLines_concat_name (hb : Text.Below n lines) (hk : titleLine? lines = some k) (hl : Text.isVisible l.2)
    (hn : l.1 = k.1 + 1) (hle : n ≤ k.1) :
    ofLines (lines ++ [l]) = { ofLines lines with slug := some (Text.trim l.2), slugLine := l.1 } := by
  obtain ⟨hfront, htitle, hname⟩ := frontRun_concat_titled hk l
  have hnone : nameLine? lines = none := by
    rw [nameLine?, hk, Option.bind_some, visibleLine?_eq_none hb (by omega)]
  rw [hnone, if_pos ⟨hn, hl⟩, Option.none_or] at hname
  simp [ofLines, hfront, htitle, hk, hname]

theorem ofLines_concat_body (hk : titleLine? lines = some k) (hn : l.1 ≠ k.1 + 1) :
    ofLines (lines ++ [l]) = ofLines lines := by
  obtain ⟨hfront, htitle, hname⟩ := frontRun_concat_titled hk l
  rw [if_neg (fun hboth => hn hboth.1), Option.or_none] at hname
  simp [ofLines, hfront, htitle, hk, hname]

/-- A line changes what is shown only if it belongs to it. -/
theorem ofLines_concat (lines : List (Nat × Text)) (l : Nat × Text) :
    ofLines (lines ++ [l]) = ofLines lines ∨ OfFront (lines ++ [l]) l := by
  by_cases hl : Text.isVisible l.2
  · by_cases hbehind : behindFront lines = []
    · right; left
      rw [(frontRun_concat_visible hbehind hl).1]
      exact List.mem_append_right _ (List.mem_singleton_self l)
    · obtain ⟨-, htitle⟩ := frontRun_concat_behind hbehind l
      cases hk : titleLine? lines with
      | none =>
        rw [hk, if_pos hl, Option.none_or] at htitle
        exact .inr (.inr (.inl htitle))
      | some k =>
        by_cases hn : l.1 = k.1 + 1
        · obtain ⟨hfront, htitle, hname⟩ := frontRun_concat_titled hk l
          cases hfirst : nameLine? lines with
          | none =>
            rw [hfirst, if_pos ⟨hn, hl⟩, Option.none_or] at hname
            exact .inr (.inr (.inr hname))
          | some first =>
            rw [hfirst, Option.some_or] at hname
            left
            simp [ofLines, hfront, htitle, hk, hname, hfirst]
        · exact .inl (ofLines_concat_body hk hn)
  · exact .inl (ofLines_concat_hidden (Bool.not_eq_true _ ▸ hl))

/-- A header is found exactly if there is a run. -/
theorem found_ofLines (ls : List Text) :
    (ofLines (Text.numberFrom 1 ls)).header.found ↔ frontRun (Text.numberFrom 1 ls) ≠ [] := by
  rw [Extent.found, ofLines, decide_eq_true_eq]
  cases hfront : frontRun (Text.numberFrom 1 ls) with
  | nil => simp
  | cons l rest =>
    obtain ⟨hidden, hlines, -⟩ := (divided (Text.numberFrom 1 ls)).exists_hidden
    have hmem : l ∈ Text.numberFrom 1 ls := by
      rw [hlines, hfront]
      simp
    have hpos : 0 < l.1 := (Text.bounds_of_mem_numberFrom hmem).1
    simpa using hpos

end Front

namespace Scan

/-- What the lines read so far have shown before the body. -/
def front (s : Scan) : Front :=
  ⟨s.extents.header, s.page, s.title, s.titleLine, s.slug, s.slugLine⟩

theorem front_readFirst (num : Nat) (stripped : Text) (s : Scan) :
    (s.readFirst num stripped).front =
      { s.front with
        header := { s.front.header with start := num, stop := num }
        page := s.front.page.readFirst num stripped } :=
  rfl

@[simp] theorem front_note (num : Nat) (line stripped next : Text) (s : Scan) :
    (s.note num line stripped next).front = s.front :=
  rfl

theorem front_readBody {s : Scan} (h : s.part ≠ some .header) (num : Nat) (line stripped : Text) :
    (s.readBody num line stripped).front = s.front := by
  have hw := congrArg Scan.front (withoutParts_readBody num line stripped h)
  exact hw

theorem front_closePart {s : Scan} (h : s.part ≠ some .header) (num : Nat) : (s.closePart num).front = s.front := by
  have hw : (s.closePart num).withoutParts.front = s.withoutParts.front :=
    congrArg Scan.front (withoutParts_closePart h)
  exact hw

section Steps

variable {ls : List Text} {line next : Text} {s s' : Scan}

theorem found_iff_of_front (hs : s.front = .ofLines (Text.numberFrom 1 ls)) :
    s.extents.header.found ↔ frontRun (Text.numberFrom 1 ls) ≠ [] := by
  rw [← Front.found_ofLines, ← hs]
  rfl

theorem stop_eq_iff_of_front (hs : s.front = .ofLines (Text.numberFrom 1 ls))
    (hne : frontRun (Text.numberFrom 1 ls) ≠ []) :
    s.extents.header.stop = ls.length ↔ behindFront (Text.numberFrom 1 ls) = [] := by
  have hheader : s.extents.header = (Front.ofLines (Text.numberFrom 1 ls)).header := congrArg Front.header hs
  rw [hheader]
  exact last_frontRun_eq_iff ls hne

theorem closed_eq_of_front (hs : s.front = .ofLines (Text.numberFrom 1 ls)) :
    s.extents.header.closed = (titleLine? (Text.numberFrom 1 ls)).isSome :=
  congrArg (fun f : Front => f.header.closed) hs

/-- A header that is closed has the title behind it. -/
theorem exists_title_of_front (hs : s.front = .ofLines (Text.numberFrom 1 ls)) (hc : s.extents.header.closed) :
    ∃ k, titleLine? (Text.numberFrom 1 ls) = some k ∧ s.titleLine = k.1 := by
  obtain ⟨k, hk⟩ := Option.isSome_iff_exists.mp (closed_eq_of_front hs ▸ hc)
  have hnum : s.titleLine = ((titleLine? (Text.numberFrom 1 ls)).map (·.1)).getD 0 := congrArg Front.titleLine hs
  rw [hk, Option.map_some, Option.getD_some] at hnum
  exact ⟨k, hk, hnum⟩

/-- A line is read as the runs of the lines so far tell. -/
theorem front_of_reads (h : Reads (ls.length + 1) line next s s') (hf : Fronted ls.length s)
    (hs : s.front = .ofLines (Text.numberFrom 1 ls)) :
    s'.front = .ofLines (Text.numberFrom 1 ls ++ [(ls.length + 1, line)]) := by
  have hb := Text.below_numberFrom ls
  have hle := hf.stop_le
  cases h with
  | hidden hl count =>
    rw [Front.ofLines_concat_hidden hl]
    exact hs
  | first hl hnone =>
    have hnil : frontRun (Text.numberFrom 1 ls) = [] := by
      rw [← not_ne_iff, ← found_iff_of_front hs, hnone]
      exact Bool.false_ne_true
    have hbehind := (divided _).behind_eq_nil hnil
    rw [Front.ofLines_of_behind_nil hbehind, hnil] at hs
    rw [Front.ofLines_concat_run hbehind hl, hnil, front_readFirst, front_note, hs]
    rfl
  | title hl hheader hc hn =>
    have hbehind : behindFront (Text.numberFrom 1 ls) ≠ [] := by
      rw [Ne, ← stop_eq_iff_of_front hs ((found_iff_of_front hs).mp hheader)]
      omega
    have hnone : titleLine? (Text.numberFrom 1 ls) = none := by
      rw [← Option.not_isSome_iff_eq_none, ← closed_eq_of_front hs, hc]
      exact Bool.false_ne_true
    rw [Front.ofLines_concat_title hb hbehind hnone hl (Nat.le_succ _), ← hs]
    rfl
  | front hl hheader hc hn =>
    have hne := (found_iff_of_front hs).mp hheader
    have hbehind : behindFront (Text.numberFrom 1 ls) = [] := by
      rw [← stop_eq_iff_of_front hs hne]
      omega
    rw [Front.ofLines_of_behind_nil hbehind] at hs
    rw [Front.ofLines_concat_run hbehind hl, Front.ofRun_concat hne, ← hs]
    rfl
  | slug hl hc ht hn =>
    obtain ⟨k, hk, hnum⟩ := exists_title_of_front hs hc
    rw [Front.ofLines_concat_name hb hk hl (by omega) (by omega), ← hs]
    rfl
  | body hl hc hn =>
    obtain ⟨k, hk, hnum⟩ := exists_title_of_front hs hc
    have ht : s.title.isSome := hf.closed_eq ▸ hc
    have hother : ls.length + 1 ≠ k.1 + 1 := fun he => hn ⟨ht, hnum ▸ he⟩
    rw [front_readBody (hf.note _ _ _ _).part_ne_header, Front.ofLines_concat_body hk hother]
    exact hs

end Steps

theorem Reached.front {ls : List Text} {s : Scan} (h : Reached ls s) : s.front = .ofLines (Text.numberFrom 1 ls) :=
  h.overLines (motive := fun lines s => s.front = .ofLines lines) rfl
    fun h _ ih _ _ => front_of_reads (reads_readLine _ _ _ _) h.fronted ih

end Scan

namespace Document

variable (fileName : Option Text) (t : Text)

theorem front_afterLines (k : Nat) :
    (Scan.initial.afterLines k (ofText fileName t).lines).front = .ofLines ((ofText fileName t).lines.take k) := by
  have h := (Scan.Reached.start.afterLines (Text.lines (prepare t)) k).front
  rw [List.nil_append, ← Text.take_numberFrom] at h
  exact h

theorem front_scan : (ofText fileName t).scan.front = .ofLines (ofText fileName t).lines := by
  have h := Scan.Reached.readLines (Text.lines (prepare t))
  exact (Scan.front_closePart h.fronted.part_ne_header _).trans h.front

theorem hasHeader_iff : (ofText fileName t).hasHeader ↔ (ofText fileName t).scan.title.isSome := by
  have hfront := front_scan fileName t
  have hheader : (ofText fileName t).scan.extents.header = (Front.ofLines (ofText fileName t).lines).header :=
    congrArg Front.header hfront
  have htitle : (ofText fileName t).scan.title = (Front.ofLines (ofText fileName t).lines).title :=
    congrArg Front.title hfront
  rw [hasHeader, hheader, htitle, Bool.and_eq_true]
  refine and_iff_right_of_imp fun hsome => ?_
  -- A title stands behind a run.
  refine (Front.found_ofLines _).mpr fun hnil => ?_
  have hnone := titleLine?_of_behind_nil ((divided _).behind_eq_nil hnil)
  rw [Front.ofLines, Option.isSome_map] at hsome
  rw [lines, Text.numberedLines, hnone] at hsome
  cases hsome

/-- While a text is read and after, the front page, the title and the name are those of the runs of the lines so
far, and a line changes them only if it belongs to them in the end. -/
theorem front_ofText :
    (∀ k, (Scan.initial.afterLines k (ofText fileName t).lines).front = .ofLines ((ofText fileName t).lines.take k)) ∧
      (∀ k, (Scan.initial.afterLines (k + 1) (ofText fileName t).lines).front =
          (Scan.initial.afterLines k (ofText fileName t).lines).front ∨
        ∃ l, (ofText fileName t).lines[k]? = some l ∧ OfFront (ofText fileName t).lines l) ∧
      (ofText fileName t).scan.front = .ofLines (ofText fileName t).lines ∧
      ((ofText fileName t).hasHeader ↔ (ofText fileName t).scan.title.isSome) := by
  refine ⟨front_afterLines fileName t, fun k => ?_, front_scan fileName t, hasHeader_iff fileName t⟩
  rw [front_afterLines, front_afterLines, List.take_add_one]
  cases hl : (ofText fileName t).lines[k]? with
  | none => simp
  | some l =>
    rcases Front.ofLines_concat ((ofText fileName t).lines.take k) l with hsame | hfront
    · exact .inl hsame
    · right
      refine ⟨l, rfl, ?_⟩
      have hsplit : (ofText fileName t).lines =
          (ofText fileName t).lines.take k ++ [l] ++ (ofText fileName t).lines.drop (k + 1) := by
        rw [← Option.toList_some, ← hl, ← List.take_add_one, List.take_append_drop]
      rw [hsplit]
      exact hfront.append _

end Document
end DraftLint.Plain
