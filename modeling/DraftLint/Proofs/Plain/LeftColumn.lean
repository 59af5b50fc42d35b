import DraftLint.Proofs.Plain.RightColumn
import DraftLint.Proofs.Text.LineEnds
import DraftLint.Proofs.Text.Pieces

/-!
# The left column

Below the source, the left column has an entry on each line, which is a label with a value or the name of the series
of drafts.  Each entry is recognized by its label, and none is taken for the name of the series by accident, as long as
the statuses do not hold that name.
-/

namespace DraftLint

namespace Citation

variable {fuel : Nat} {u v p t : Text} {ps : List Text}

/-- The pieces between commas that are not blank. -/
def listed (t : Text) : List Text :=
  ((Text.splitOn ',' t).map Text.trim).filter fun n => !n.isEmpty

theorem not_digit_of_blanks {b : Text} (hb : ∀ c ∈ b, Text.isBlank c) : ∀ c ∈ b, CharSet.digit c = false :=
  fun c hc => not_digit_of_not_isWord (Text.not_isWord_of_isBlank (hb c hc))

/-- A piece has at most one number, with blanks around it. -/
theorem numbersAfter_piece (hp : Text.trim p ≠ [] → IsNumber (Text.trim p))
    (hu : ∀ c ∈ u.getLast?, Text.isWord c = false) (hv : ∀ c ∈ v.head?, Text.isWord c = false)
    (hfuel : p.length ≤ fuel) :
    numbersAfter fuel u (p ++ v) =
      [Text.trim p].filter (fun n => !n.isEmpty) ++ numbersAfter fuel (u ++ p) v := by
  obtain ⟨b, b', hb, hb', hsplit⟩ := Text.exists_blanks_around p
  generalize Text.trim p = n at hp hsplit ⊢
  subst hsplit
  rw [List.append_assoc, numbersAfter_passed (not_digit_of_blanks hb), List.append_assoc]
  cases n with
  | nil =>
    rw [List.nil_append, numbersAfter_passed (not_digit_of_blanks hb'), List.append_assoc]
    rfl
  | cons d ds =>
    have hbefore : ∀ c ∈ (u ++ b).getLast?, Text.isWord c = false := by
      intro c hc
      rw [List.getLast?_append, Option.mem_def, Option.or_eq_some_iff] at hc
      rcases hc with hc | ⟨-, hc⟩
      · exact Text.not_isWord_of_isBlank (hb c (List.mem_of_getLast? hc))
      · exact hu c hc
    have hafter : ∀ c ∈ (b' ++ v).head?, Text.isWord c = false := by
      intro c hc
      rw [List.head?_append, Option.mem_def, Option.or_eq_some_iff] at hc
      rcases hc with hc | ⟨-, hc⟩
      · exact Text.not_isWord_of_isBlank (hb' c (List.mem_of_head? hc))
      · exact hv c hc
    simp only [List.length_append] at hfuel
    rw [numbersAfter_found (hp (List.cons_ne_nil d ds)) hbefore hafter (by omega),
      numbersAfter_passed (not_digit_of_blanks hb'), List.append_assoc, List.append_assoc]
    rfl

theorem numbersAfter_join (hps : ∀ p ∈ ps, Text.trim p ≠ [] → IsNumber (Text.trim p))
    (hu : ∀ c ∈ u.getLast?, Text.isWord c = false) (hfuel : (Text.join [','] ps).length ≤ fuel) :
    numbersAfter fuel u (Text.join [','] ps) = (ps.map Text.trim).filter fun n => !n.isEmpty := by
  induction ps generalizing u with
  | nil => exact numbersAfter_nil u
  | cons p ps ih =>
    obtain ⟨hp, hps⟩ := List.forall_mem_cons.mp hps
    cases ps with
    | nil =>
      rw [Text.join, List.intercalate_singleton] at hfuel ⊢
      have hpiece := numbersAfter_piece (v := []) hp hu (by simp) hfuel
      rw [List.append_nil, numbersAfter_nil, List.append_nil] at hpiece
      rw [hpiece]
      rfl
    | cons q ps =>
      have hcomma : ∀ c ∈ (u ++ p ++ [',']).getLast?, Text.isWord c = false := by
        rw [List.getLast?_concat]
        rintro _ ⟨⟩
        rfl
      have hjoin : Text.join [','] (p :: q :: ps) = p ++ ([','] ++ Text.join [','] (q :: ps)) :=
        (List.intercalate_cons_cons ..).trans (List.append_assoc ..)
      rw [hjoin, List.length_append, List.length_append] at hfuel
      rw [hjoin, numbersAfter_piece hp hu (by rintro _ ⟨⟩; rfl) (by omega),
        numbersAfter_passed (List.forall_mem_singleton.mpr rfl), ih hps hcomma (by omega), ← List.filter_append]
      rfl

/-- The numbers of a list with commas between them. -/
theorem numbersIn_eq_listed (h : ∀ n ∈ listed t, IsNumber n) : numbersIn t = listed t := by
  have hpieces : ∀ p ∈ Text.splitOn ',' t, Text.trim p ≠ [] → IsNumber (Text.trim p) := by
    intro p hp hne
    refine h _ (List.mem_filter.mpr ⟨List.mem_map_of_mem hp, ?_⟩)
    rw [List.isEmpty_eq_false_iff.mpr hne, Bool.not_false]
  have hjoin := Text.join_splitOn ',' t
  calc numbersIn t
      = numbersAfter t.length [] t := by rw [numbersIn, Pattern.scan_eq_scanAfter]; rfl
    _ = numbersAfter t.length [] (Text.join [','] (Text.splitOn ',' t)) := by rw [hjoin]
    _ = listed t := numbersAfter_join hpieces (by simp) (by rw [hjoin])

end Citation

namespace Plain

open Calendar

namespace FrontPage

open Pattern

variable {t a b u v : Text} {c x : Char}

/-- The character passes for the letter when case is ignored. -/
def Alike (x c : Char) : Prop :=
  (CharSet.only x).ignoreCase c

instance (x c : Char) : Decidable (Alike x c) :=
  inferInstanceAs (Decidable (_ = true))

theorem forall₂_of_reads {cs : List Char} {r r' : Reach} (h : Reads (literal cs).ignoreCase r u r') :
    List.Forall₂ Alike cs u := by
  obtain ⟨hlength, hsees⟩ := h.sees_row (row_literal_ignoreCase cs) []
  rw [List.append_nil] at hsees
  have hall := Citation.forall₂_of_sees hlength.symm hsees
  rw [List.forall₂_map_left_iff] at hall
  exact hall

/-- Where the name of the series is found, its two words stand on either side of a hyphen or a space. -/
theorem exists_words_of_draftSeries (h : draftSeries.occursIn t) :
    ∃ p w c w' q, t = p ++ w ++ c :: (w' ++ q) ∧ (c = '-' ∨ c = ' ') ∧
      List.Forall₂ Alike "Internet".toList w ∧ List.Forall₂ Alike "Draft".toList w' := by
  obtain ⟨p, v, rfl, hmatch⟩ := occursIn_iff.mp h
  obtain ⟨m, hm⟩ := Option.isSome_iff_exists.mp hmatch
  obtain ⟨u, hread⟩ := reads_of_matchAt hm
  have hrest : v = u ++ m.stop.rest := hread.advance.1
  obtain ⟨w, _, _, rfl, hfirst, hread⟩ := hread.of_seq
  obtain ⟨_, w', _, rfl, hsep, hsecond⟩ := hread.of_seq
  obtain ⟨c, rfl, hc⟩ := hsep.of_one
  have hmark : CharSet.of "- " c := by
    refine Text.mem_of_ignoreCase (s := CharSet.of "- ") (fun d hd => ?_) hc
    rw [Bool.eq_false_iff]
    intro hmark
    have hcases : d = '-' ∨ d = ' ' := by simpa [CharSet.of] using hmark
    rcases hcases with rfl | rfl <;> cases hd
  refine ⟨p, w, c, w', m.stop.rest, ?_, by simpa [CharSet.of] using hmark, forall₂_of_reads hfirst,
    forall₂_of_reads hsecond⟩
  rw [hrest]
  simp only [List.append_assoc, List.cons_append, List.nil_append]

/-- The name is not found if its first word does not stand in front of a run without hyphens and spaces, and its second
not behind that run. -/
theorem draftSeries_occursIn_eq_false {m : Text} (ha : ∃ x ∈ "Internet".toList, ∀ c ∈ a, ¬Alike x c)
    (hm : ∀ c ∈ m, c ≠ '-' ∧ c ≠ ' ') (hb : ∃ x ∈ "Draft".toList, ∀ c ∈ b, ¬Alike x c) :
    draftSeries.occursIn (a ++ (m ++ b)) = false := by
  rw [Bool.eq_false_iff]
  intro hoccurs
  obtain ⟨p, w, c, w', q, ht, hc, hw, hw'⟩ := exists_words_of_draftSeries hoccurs
  have hfirst : ¬w ⊆ a := by
    obtain ⟨x, hx, ha⟩ := ha
    obtain ⟨d, hd, hxd⟩ := Citation.exists_mem_of_forall₂ hw.flip hx
    exact fun hsub => ha d (hsub hd) hxd
  have hsecond : ¬w' ⊆ b := by
    obtain ⟨x, hx, hb⟩ := hb
    obtain ⟨d, hd, hxd⟩ := Citation.exists_mem_of_forall₂ hw'.flip hx
    exact fun hsub => hb d (hsub hd) hxd
  rcases List.append_eq_append_iff.mp ht with ⟨y, hy, hrest⟩ | ⟨y, hy, -⟩
  · rcases List.append_eq_append_iff.mp hrest with ⟨z, -, hz⟩ | ⟨z, hz, hrest⟩
    · refine hsecond ?_
      rw [hz]
      exact fun d hd => by simp [hd]
    · cases z with
      | nil =>
        refine hsecond ?_
        rw [← show c :: (w' ++ q) = b from hrest]
        exact fun d hd => by simp [hd]
      | cons e z =>
        obtain rfl : c = e := (List.cons.inj hrest).1
        have hplain := hm c (by rw [hz]; simp)
        exact hc.elim hplain.1 hplain.2
  · refine hfirst ?_
    rw [hy]
    exact fun d hd => by simp [hd]

theorem occursIn_eq_false_of_first (h : ∃ x ∈ "Internet".toList, ∀ c ∈ t, ¬Alike x c) :
    draftSeries.occursIn t = false := by
  have hsplit := draftSeries_occursIn_eq_false (m := []) (b := []) h (List.forall_mem_nil _)
    ⟨'a', by decide, List.forall_mem_nil _⟩
  rwa [List.append_nil, List.append_nil] at hsplit

theorem occursIn_eq_false_of_second (h : ∃ x ∈ "Draft".toList, ∀ c ∈ t, ¬Alike x c) :
    draftSeries.occursIn t = false :=
  draftSeries_occursIn_eq_false (a := []) (m := []) ⟨'n', by decide, List.forall_mem_nil _⟩ (List.forall_mem_nil _) h

/-- Neither digits nor blanks nor marks pass for letters. -/
theorem not_alike_of_around (hx : CharSet.lower x) (h : WrittenDate.Around c) : ¬Alike x c := by
  intro halike
  have hlower := Text.lower_ignoreCase_of_only hx halike
  rcases h with hblank | hdigit | rfl | rfl
  · rw [Text.not_isBlank_of_ignoreCase hlower] at hblank
    cases hblank
  · have hdecimal := Text.not_isDecimal_of_ignoreCase hlower
    rw [Text.isDecimal_of_digit_ignoreCase hdigit] at hdecimal
    cases hdecimal
  · exact absurd hlower (by decide)
  · exact absurd hlower (by decide)

end FrontPage

/-- The labels of the left column. -/
inductive Label where
  | request
  | obsoletes
  | updates
  | category
  | intended
  | expires
deriving DecidableEq

def Label.name : Label → String
  | request => "Request for Comments"
  | obsoletes => "Obsoletes"
  | updates => "Updates"
  | category => "Category"
  | intended => "Intended status"
  | expires => "Expires"

/-- An entry below the source: the name of the series of drafts, or a label and what stands behind its colon. -/
inductive Note where
  | series
  | labelled (l : Label) (v : Text)

/-- What the entries of the left column tell. -/
structure Standing where
  kind : Option Kind
  rfcNumber : Option Text
  obsoletes : List Text
  updates : List Text
  category : Option Text
  intendedStatus : Option Text
  expires : Option Date

def FrontPage.standing (f : FrontPage) : Standing where
  kind := f.kind
  rfcNumber := f.header.rfcNumber
  obsoletes := f.header.obsoletes
  updates := f.header.updates
  category := f.header.category
  intendedStatus := f.header.intendedStatus
  expires := f.header.expires

namespace Note

def text : Note → Text
  | series => "Internet-Draft".toList
  | labelled l v => l.name.toList ++ ':' :: v

/-- The value is of the kind that the label asks for; a status does not hold the name of the series. -/
def Proper : Note → Prop
  | series => True
  | labelled .request v => Citation.IsNumber (Text.trim v)
  | labelled .obsoletes v | labelled .updates v => ∀ n ∈ Citation.listed (Text.trim v), Citation.IsNumber n
  | labelled .category v => FrontPage.draftSeries.occursIn (labelled .category v).text = false
  | labelled .intended v => FrontPage.draftSeries.occursIn (labelled .intended v).text = false
  | labelled .expires v => (WrittenDate.read? (Text.trim v)).isSome

instance : (e : Note) → Decidable e.Proper
  | series => inferInstanceAs (Decidable True)
  | labelled .request _ => inferInstanceAs (Decidable (Citation.IsNumber _))
  | labelled .obsoletes _ | labelled .updates _ =>
    inferInstanceAs (Decidable (∀ n ∈ Citation.listed _, Citation.IsNumber n))
  | labelled .category _ | labelled .intended _ => inferInstanceAs (Decidable (_ = false))
  | labelled .expires _ => inferInstanceAs (Decidable (_ = true))

/-- What the entry adds to what those before have told. -/
def tell : Note → Standing → Standing
  | series, s => { s with kind := some .draft }
  | labelled .request v, s => { s with kind := some .rfc, rfcNumber := some (Text.trim v) }
  | labelled .obsoletes v, s => { s with obsoletes := Citation.listed (Text.trim v) }
  | labelled .updates v, s => { s with updates := Citation.listed (Text.trim v) }
  | labelled .category v, s => { s with category := some (FrontPage.statusText (Text.trim v)) }
  | labelled .intended v, s => { s with intendedStatus := some (FrontPage.statusText (Text.trim v)) }
  | labelled .expires v, s => { s with expires := WrittenDate.readDate? (Text.trim v) }

variable {l : Label} {v : Text}

theorem text_labelled (l : Label) (v : Text) : (labelled l v).text = l.name.toList ++ [':'] ++ v := by
  rw [List.append_assoc]
  rfl

theorem cut_text (l : Label) (v : Text) : Text.cut ':' (labelled l v).text = (l.name.toList, v) := by
  have hname : ':' ∉ l.name.toList := by cases l <;> decide
  exact Text.cut_append hname v

theorem around_of_isNumber {n : Text} {c : Char} (h : Citation.IsNumber n) (hc : c ∈ n) : WrittenDate.Around c :=
  .inr (.inl (Text.ignoreCase_of_mem (h.2 c hc)))

theorem around_of_mem_trim {t : Text} {c : Char} (h : ∀ c ∈ Text.trim t, WrittenDate.Around c) (hc : c ∈ t) :
    WrittenDate.Around c := by
  by_cases hblank : Text.isBlank c = true
  · exact .inl hblank
  · exact h c (Text.mem_trim hc (Bool.eq_false_iff.mpr hblank))

/-- Numbers have only commas and blanks between them. -/
theorem around_of_listed {t : Text} {c : Char} (h : ∀ n ∈ Citation.listed t, Citation.IsNumber n) (hc : c ∈ t) :
    WrittenDate.Around c := by
  rcases Text.exists_piece_of_mem hc with hcomma | ⟨p, hp, hc⟩
  · exact .inr (.inr (.inr hcomma))
  · refine around_of_mem_trim (fun d hd => ?_) hc
    have hpiece : Text.trim p ∈ Citation.listed t := by
      refine List.mem_filter.mpr ⟨List.mem_map_of_mem hp, ?_⟩
      rw [List.isEmpty_eq_false_iff.mpr (List.ne_nil_of_mem hd), Bool.not_false]
    exact around_of_isNumber (h _ hpiece) hd

theorem not_alike_of_mem_text {x : Char} (hx : CharSet.lower x)
    (hname : ∀ c ∈ l.name.toList ++ [':'], ¬FrontPage.Alike x c) (hv : ∀ c ∈ v, WrittenDate.Around c) :
    ∀ c ∈ (labelled l v).text, ¬FrontPage.Alike x c := by
  rw [text_labelled, List.forall_mem_append]
  exact ⟨hname, fun c hc => FrontPage.not_alike_of_around hx (hv c hc)⟩

theorem occursIn_expires_eq_false (h : (WrittenDate.read? (Text.trim v)).isSome) :
    FrontPage.draftSeries.occursIn (labelled .expires v).text = false := by
  obtain ⟨w, hw⟩ := Option.isSome_iff_exists.mp h
  obtain ⟨before, month, after, rfl, hbefore, hmonth, hafter, -⟩ := (WrittenDate.hasMonth_of_read? hw).of_trim
  have hname : ∀ c ∈ Label.expires.name.toList ++ [':'], ¬FrontPage.Alike 'n' c := by decide
  rw [text_labelled, ← List.append_assoc]
  refine FrontPage.draftSeries_occursIn_eq_false ⟨'n', by decide, ?_⟩ ?_ ⟨'f', by decide, ?_⟩
  · exact List.forall_mem_append.mpr ⟨hname, fun c hc => FrontPage.not_alike_of_around rfl (hbefore c hc)⟩
  · intro c hc
    constructor
    · rintro rfl
      exact absurd (hmonth '-' hc) (by decide)
    · rintro rfl
      exact absurd (hmonth ' ' hc) (by decide)
  · exact fun c hc => FrontPage.not_alike_of_around rfl (hafter c hc)

theorem occursIn_eq_false_of_listed (h : ∀ n ∈ Citation.listed (Text.trim v), Citation.IsNumber n)
    (hname : ∀ c ∈ l.name.toList ++ [':'], ¬FrontPage.Alike 'n' c) :
    FrontPage.draftSeries.occursIn (labelled l v).text = false := by
  have hv : ∀ c ∈ v, WrittenDate.Around c := fun c => around_of_mem_trim fun _ => around_of_listed h
  exact FrontPage.occursIn_eq_false_of_first ⟨'n', by decide, not_alike_of_mem_text (by decide) hname hv⟩

/-- The name of the series does not stand where it does not belong. -/
theorem Proper.occursIn_eq_false (h : (labelled l v).Proper) :
    FrontPage.draftSeries.occursIn (labelled l v).text = false := by
  cases l with
  | request =>
    have hname : ∀ c ∈ Label.request.name.toList ++ [':'], ¬FrontPage.Alike 'a' c := by decide
    have hv : ∀ c ∈ v, WrittenDate.Around c := fun c => around_of_mem_trim fun _ => around_of_isNumber h
    have htext := not_alike_of_mem_text (by decide) hname hv
    exact FrontPage.occursIn_eq_false_of_second ⟨'a', by decide, htext⟩
  | obsoletes | updates => exact occursIn_eq_false_of_listed h (by decide)
  | category | intended => exact h
  | expires => exact occursIn_expires_eq_false h

theorem begins_request_text (l : Label) (v : Text) :
    FrontPage.begins "Request for Comments" (labelled l v).text = decide (l = .request) := by
  cases l with
  | request => exact List.isPrefixOf_iff_prefix.mpr (List.prefix_append _ _)
  | _ => rfl

/-- Each entry adds what it tells. -/
theorem Proper.standing_readLeft {e : Note} (h : e.Proper) (f : FrontPage) :
    (f.readLeft e.text).standing = e.tell f.standing := by
  cases e with
  | series => rfl
  | labelled l v =>
    rw [FrontPage.readLeft, cut_text]
    simp only [h.occursIn_eq_false, begins_request_text]
    cases l with
    | request =>
      have hne : (Text.trim v).isEmpty = false := List.isEmpty_eq_false_iff.mpr h.1
      simp [hne, tell, FrontPage.standing]
    | obsoletes | updates =>
      have hlist := Citation.numbersIn_eq_listed h
      simp [FrontPage.begins, Text.startsWith, Label.name, tell, FrontPage.standing, hlist]
    | category | intended => simp [FrontPage.begins, Text.startsWith, Label.name, tell, FrontPage.standing]
    | expires =>
      obtain ⟨w, hw⟩ := Option.isSome_iff_exists.mp h
      obtain ⟨d, hd⟩ := WrittenDate.exists_date_of_read? hw
      have hdate : WrittenDate.readDate? (Text.trim v) = some d := by
        simp [WrittenDate.readDate?, hw, hd]
      simp [FrontPage.begins, Text.startsWith, Label.name, tell, FrontPage.standing, hdate]

/-- The entry names the document or its series. -/
def namesDocument : Note → Bool
  | series => true
  | labelled l _ => l == .request

variable {notes : List Note} {s : Standing}

/-- Below an entry that names the document, nothing is left of the kind from before. -/
theorem foldl_tell_of_names (h : ∃ e ∈ notes, e.namesDocument) (s : Standing) (kind : Option Kind) :
    notes.foldl (fun s e => e.tell s) { s with kind } = notes.foldl (fun s e => e.tell s) s := by
  induction notes generalizing s with
  | nil => simp at h
  | cons e notes ih =>
    rw [List.foldl_cons, List.foldl_cons]
    by_cases he : e.namesDocument = true
    · have htell : e.tell { s with kind } = e.tell s := by
        cases e with
        | series => rfl
        | labelled l v =>
          obtain rfl : l = .request := beq_iff_eq.mp he
          rfl
      rw [htell]
    · have hrest : ∃ e ∈ notes, e.namesDocument := by
        obtain ⟨e', he', hnames⟩ := h
        rcases List.mem_cons.mp he' with rfl | he'
        · exact absurd hnames he
        · exact ⟨e', he', hnames⟩
      have htell : e.tell { s with kind } = { e.tell s with kind } := by
        cases e with
        | series => exact absurd rfl he
        | labelled l v =>
          cases l with
          | request => exact absurd rfl he
          | _ => rfl
      rw [htell, ih hrest]

end Note

/-- The text has none of the words in front that the labels have. -/
def Bare (t : Text) : Prop :=
  ∀ word ∈ ["Request for Comments", "Intended", "Obsoletes", "Updates", "Category", "Expires"],
    FrontPage.begins word t = false

instance (t : Text) : Decidable (Bare t) :=
  inferInstanceAs (Decidable (∀ _ ∈ _, _))

namespace FrontPage

variable {f : FrontPage} {r : Row} {rows : List Row} {num : Nat} {t : Text} {notes : List Note}

/-- A source may hold the name of the series, and that is all it can tell. -/
theorem standing_readLeft_of_bare (h : Bare t) (f : FrontPage) :
    ∃ kind, (f.readLeft t).standing = { f.standing with kind } := by
  have hlabel : ∀ word ∈ ["Request for Comments", "Intended", "Obsoletes", "Updates", "Category", "Expires"],
      begins word (Text.cut ':' t).1 = false := by
    intro word hword
    rw [Bool.eq_false_iff]
    intro hbegins
    have hprefix := (List.isPrefixOf_iff_prefix.mp hbegins).trans (List.takeWhile_prefix _)
    have hbare := h word hword
    rw [begins, Text.startsWith, List.isPrefixOf_iff_prefix.mpr hprefix] at hbare
    cases hbare
  simp only [Bare, List.forall_mem_cons] at h hlabel
  obtain ⟨hrequest, -⟩ := h
  obtain ⟨-, hintended, hobsoletes, hupdates, hcategory, hexpires, -⟩ := hlabel
  simp only [readLeft, hrequest, hintended, hobsoletes, hupdates, hcategory, hexpires, Bool.false_eq_true, if_false]
  split_ifs
  · exact ⟨some .draft, rfl⟩
  · exact ⟨f.kind, rfl⟩
  · exact ⟨f.kind, rfl⟩

theorem standing_readRight (num : Nat) (right : Text) (f : FrontPage) :
    (f.readRight num right).standing = f.standing := by
  obtain ⟨c, hf, -⟩ := exists_withCredits (f := f) rfl num right
  rw [hf]
  rfl

theorem standing_readLoneDate (left : Text) (f : FrontPage) : (f.readLoneDate left).standing = f.standing := by
  unfold readLoneDate
  split_ifs
  · rfl
  · split <;> rfl

/-- The column is read entry by entry. -/
theorem standing_readRows (hrows : ∀ r ∈ rows, r.Laid)
    (hleft : (rows.map Row.left).filter (fun t => !t.isEmpty) = notes.map Note.text)
    (hnotes : ∀ e ∈ notes, e.Proper) :
    (f.readRows num rows).standing = notes.foldl (fun s e => e.tell s) f.standing := by
  induction rows generalizing f num notes with
  | nil =>
    obtain rfl := List.map_eq_nil_iff.mp hleft.symm
    rfl
  | cons r rows ih =>
    obtain ⟨hr, hrows⟩ := List.forall_mem_cons.mp hrows
    have hcell : (f.readLine num r.line (Text.trim r.line)).standing = (f.readCell r.left).standing := by
      rw [hr.readLine_line]
      split_ifs
      · exact standing_readLoneDate _ _
      · exact standing_readRight _ _ _
    rw [readRows_cons]
    by_cases hempty : r.left.isEmpty = true
    · rw [List.map_cons, List.filter_cons_of_neg (by simp [hempty])] at hleft
      rw [ih hrows hleft hnotes, hcell, readCell, if_pos hempty]
    · rw [List.map_cons, List.filter_cons_of_pos (by simpa using hempty)] at hleft
      obtain ⟨e, notes, rfl, htext, hleft⟩ := List.map_eq_cons_iff.mp hleft.symm
      obtain ⟨he, hnotes⟩ := List.forall_mem_cons.mp hnotes
      rw [ih hrows hleft.symm hnotes, hcell, readCell, if_neg hempty, ← htext, he.standing_readLeft, List.foldl_cons]

end FrontPage

end Plain
end DraftLint
