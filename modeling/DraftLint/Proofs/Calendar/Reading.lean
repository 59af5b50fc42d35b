import DraftLint.Proofs.Calendar
import DraftLint.Proofs.Pattern.Groups
import DraftLint.Proofs.Text.SmallLetters
import DraftLint.Proofs.Text.Writing

/-!
# Dates in text

A text is read as a date if it is made up of a month, a year and perhaps a day in front of the month or behind it, and
if they name a day.  Two days are read as well, of which the second makes no difference, and a day zero is read as if
there were none.
-/

namespace DraftLint

/-- Texts are divided in the same way after the characters of a class, if the next one is in neither. -/
theorem Text.eq_of_append_eq_of_class {p : Char → Bool} {s s' v v' : Text} (hs : ∀ c ∈ s, p c) (hs' : ∀ c ∈ s', p c)
    (hv : ∀ c ∈ v.head?, p c = false) (hv' : ∀ c ∈ v'.head?, p c = false) (h : s ++ v = s' ++ v') :
    s = s' ∧ v = v' := by
  have htake : ∀ {s v : Text}, (∀ c ∈ s, p c) → (∀ c ∈ v.head?, p c = false) → (s ++ v).takeWhile p = s := by
    intro s v hs hv
    rw [List.takeWhile_append_of_pos hs]
    cases v with
    | nil => exact List.append_nil s
    | cons c v =>
      rw [List.takeWhile_cons_of_neg (by rw [hv c rfl]; exact Bool.false_ne_true), List.append_nil]
  have hsame : s = s' := by rw [← htake hs hv, h, htake hs' hv']
  rw [hsame] at h
  exact ⟨hsame, List.append_cancel_left h⟩

namespace Calendar

/-- At least three letters, which may be a month. -/
structure IsMonthWord (s : Text) : Prop where
  three_le : 3 ≤ s.length
  letters : ∀ c ∈ s, CharSet.lower.ignoreCase c

theorem IsMonthWord.exists_cons {s : Text} (h : IsMonthWord s) : ∃ c t, s = c :: t ∧ CharSet.lower.ignoreCase c := by
  obtain ⟨c, t, rfl⟩ := List.exists_cons_of_length_pos (Nat.lt_of_lt_of_le (by decide) h.three_le)
  exact ⟨c, t, rfl, h.letters c List.mem_cons_self⟩

/-- At least three letters, in either case, with which the name of the month begins. -/
structure SpellsMonth (s : Text) (month : Nat) : Prop where
  three_le : 3 ≤ s.length
  pos : 1 ≤ month
  begins : ∃ name, monthNames[month - 1]? = some name ∧ s.map Char.toLower <+: name.toList

section Months

variable {s : Text} {month : Nat}

theorem isPlainSmall_monthNames : ∀ name ∈ monthNames, ∀ c ∈ name.toList, Text.isPlainSmall c := by
  decide

/-- Three letters tell the months apart. -/
theorem take_three_monthNames : ∀ i < 12, ∀ j < 12,
    (monthNames[i]?.map fun m => m.toList.take 3) = (monthNames[j]?.map fun m => m.toList.take 3) → i = j := by
  decide

theorem monthBeginning?_eq_some_iff (hs : 3 ≤ s.length) :
    monthBeginning? s = some month ↔ 1 ≤ month ∧ ∃ name, monthNames[month - 1]? = some name ∧ s <+: name.toList := by
  have hbegins : ∀ {name : String}, Text.startsWith s name.toList ↔ s <+: name.toList := List.isPrefixOf_iff_prefix
  have hthree : ∀ {i : Nat} {name : String}, monthNames[i]? = some name → s <+: name.toList →
      (monthNames[i]?.map fun m => m.toList.take 3) = some (s.take 3) := by
    intro i name hi hname
    rw [hi, Option.map_some, List.prefix_iff_eq_take.mp hname, List.take_take, Nat.min_eq_left hs]
  rw [monthBeginning?, Option.map_eq_some_iff]
  constructor
  · rintro ⟨i, hi, rfl⟩
    obtain ⟨hlt, hname, -⟩ := List.findIdx?_eq_some_iff_getElem.mp hi
    exact ⟨Nat.le_add_left 1 i, _, List.getElem?_eq_getElem hlt, hbegins.mp hname⟩
  · rintro ⟨hpos, name, hname, hprefix⟩
    obtain ⟨hlt, rfl⟩ := List.getElem?_eq_some_iff.mp hname
    refine ⟨month - 1, ?_, Nat.sub_add_cancel hpos⟩
    refine List.findIdx?_eq_some_iff_getElem.mpr ⟨hlt, hbegins.mpr hprefix, fun j hj hother => ?_⟩
    have hjlt : j < monthNames.length := Nat.lt_trans hj hlt
    have hsame := (hthree hname hprefix).trans
      (hthree (List.getElem?_eq_getElem hjlt) (hbegins.mp hother)).symm
    exact absurd (take_three_monthNames _ hlt _ hjlt hsame) (by omega)

theorem dot_not_mem_lower (h : ∀ c ∈ s, CharSet.lower.ignoreCase c) : '.' ∉ Text.lower s := by
  intro hdot
  obtain ⟨c, hc, hsmall | ⟨-, hsigma⟩⟩ := Text.mem_lowerFrom hdot
  · have hletter : ∀ c : Char, c.toNat < 0x80 → 0x41 ≤ c.toNat → c.toLower ≠ '.' :=
      Text.forall_of_lt (by decide)
    refine Text.forall_lower_ignoreCase (p := fun c => '.' ∉ Text.lowerChar c) (fun c hc => ?_) (by decide) (h c hc)
      hsmall
    have hne := hletter c (by omega) hc.1
    rw [Text.lowerChar_of_lt (by omega), List.mem_singleton]
    exact hne.symm
  · exact absurd hsigma (by decide)

theorem isPlainSmall_of_begins {i : Nat} {name : String} (hname : monthNames[i]? = some name) (h : s <+: name.toList) :
    ∀ c ∈ s, Text.isPlainSmall c :=
  fun c hc => isPlainSmall_monthNames name (List.mem_of_getElem? hname) c (h.subset hc)

/-- A month in letters is recognized exactly if it is spelled so. -/
theorem monthNumber_eq_some_iff (h : ∀ c ∈ s, CharSet.lower.ignoreCase c) :
    monthNumber s = .ok (some month) ↔ SpellsMonth s month := by
  have htrim : Text.trim s = s := Text.trim_eq_self fun c hc => Text.not_isBlank_of_ignoreCase (h c hc)
  have hdots : Text.dropRightWhile (· == '.') (Text.lower s) = Text.lower s :=
    Text.dropRightWhile_eq_self fun c hc => beq_eq_false_iff_ne.mpr (ne_of_mem_of_not_mem hc (dot_not_mem_lower h))
  have hdigits := allDigits_of_letters h
  rw [htrim, hdots] at hdigits
  simp only [monthNumber, hdigits, htrim, hdots, Bool.false_eq_true, if_false]
  constructor
  · intro heq
    split_ifs at heq with hshort
    · cases heq
    · obtain ⟨hpos, name, hname, hprefix⟩ := (monthBeginning?_eq_some_iff (Nat.not_lt.mp hshort)).mp (Except.ok.inj heq)
      have hsmall : s.map Char.toLower = Text.lower s :=
        (Text.lower_eq_iff (isPlainSmall_of_begins hname hprefix)).mp rfl
      rw [← hsmall] at hshort hprefix
      exact ⟨by simpa using hshort, hpos, name, hname, hprefix⟩
  · rintro ⟨hthree, hpos, name, hname, hprefix⟩
    have hsmall : Text.lower s = s.map Char.toLower :=
      (Text.lower_eq_iff (isPlainSmall_of_begins hname hprefix)).mpr rfl
    have hlength : 3 ≤ (s.map Char.toLower).length := by rwa [List.length_map]
    rw [hsmall, if_neg (Nat.not_lt.mpr hlength), (monthBeginning?_eq_some_iff hlength).mpr ⟨hpos, name, hname, hprefix⟩]

theorem SpellsMonth.isMonthWord (h : SpellsMonth s month) : IsMonthWord s := by
  obtain ⟨name, hname, hprefix⟩ := h.begins
  have hascii : ∀ c : Char, c.toNat < 0x80 → Text.isPlainSmall c.toLower → CharSet.lower.ignoreCase c :=
    Text.forall_of_lt (by decide)
  refine ⟨h.three_le, fun c hc => ?_⟩
  have hsmall := isPlainSmall_of_begins hname hprefix _ (List.mem_map_of_mem hc)
  have hbounds := Text.bounds_of_isPlainSmall hsmall
  have hlt := Text.lt_of_toLower_lt (c := c) (by omega)
  exact hascii c hlt hsmall

end Months

/-- The texts that a date consists of: perhaps a day in front of the month, the month, perhaps a day behind it, and the
year. -/
structure Parts where
  first : Option Text
  month : Text
  second : Option Text
  year : Text

/-- One or two digits with these marks and a blank behind them, or nothing. -/
inductive DayText (marks : Text) : Option Text → Text → Prop where
  | none : DayText marks none []
  | some {s : Text} {b : Char} (hpos : 1 ≤ s.length) (hle : s.length ≤ 2) (hdigit : ∀ c ∈ s, CharSet.digit c)
      (hblank : Text.isBlank b) : DayText marks (some s) (s ++ (marks ++ [b]))

theorem DayText.unique {marks t : Text} {o o' : Option Text} (h : DayText marks o t) (h' : DayText marks o' t) :
    o = o' := by
  cases h with
  | none =>
    generalize ht : ([] : Text) = t at h'
    cases h' with
    | none => rfl
    | some hpos => simp at ht
  | @some s b hpos hle hdigit hblank =>
    generalize ht : s ++ (marks ++ [b]) = t at h'
    cases h' with
    | none => simp at ht
    | @some s' b' => rw [(List.append_inj' ht (by simp)).1]

namespace Parts

/-- The parts make up the text: a single blank is behind the days and the month, a full stop may be at the end of the
month, and a comma is at the end of a day that follows it.  The year has four digits. -/
def MakeUp (p : Parts) (t : Text) : Prop :=
  ∃ d stop b e, t = d ++ (p.month ++ (stop ++ b :: (e ++ p.year))) ∧ DayText [] p.first d ∧
    (stop = [] ∨ stop = ['.']) ∧ Text.isBlank b ∧ DayText [','] p.second e ∧ p.year.length = 4 ∧
    ∀ c ∈ p.year, CharSet.digit c

section Layout

open Pattern

variable {p p' : Parts} {marks t u : Text} {o o' : Option Text} {r r' : Reach} {m : Match}

theorem not_letter_of_digit {c : Char} (h : CharSet.digit c) : CharSet.lower.ignoreCase c = false := by
  rw [Bool.eq_false_iff]
  intro hletter
  have hdecimal := Text.isDecimal_of_digit h
  rw [Text.not_isDecimal_of_ignoreCase hletter] at hdecimal
  cases hdecimal

theorem not_letter_of_isBlank {c : Char} (h : Text.isBlank c) : CharSet.lower.ignoreCase c = false := by
  rw [Bool.eq_false_iff]
  intro hletter
  rw [Text.not_isBlank_of_ignoreCase hletter] at h
  cases h

theorem blank_of_reads (h : Reads (one CharSet.blank.ignoreCase) r t r') : ∃ b, Text.isBlank b ∧ t = [b] := by
  obtain ⟨b, rfl, hb⟩ := h.of_one
  exact ⟨b, Text.isBlank_of_ignoreCase hb, rfl⟩

theorem mark_of_reads {x : Char} (hx : CharSet.letter x = false)
    (h : Reads (one (CharSet.only x).ignoreCase) r t r') : t = [x] := by
  obtain ⟨c, rfl, hc⟩ := h.of_one
  rw [Text.eq_of_only_ignoreCase hx hc]

theorem month_of_reads {n : Nat} (h : Reads (.group n (atLeast 3 (one CharSet.lower.ignoreCase))) r t r') :
    IsMonthWord t ∧ r'.noted = (n, t) :: r.noted := by
  obtain ⟨_, hword, -⟩ := h.of_group
  obtain ⟨hthree, hletters⟩ := hword.of_atLeast_one
  exact ⟨⟨hthree, hletters⟩, h.noted_group (plain_atLeast_one _ 3)⟩

theorem year_of_reads {n : Nat} (h : Reads (.group n (times 4 (one CharSet.digit.ignoreCase))) r t r') :
    t.length = 4 ∧ (∀ c ∈ t, CharSet.digit c) ∧ r'.noted = (n, t) :: r.noted := by
  obtain ⟨_, hyear, -⟩ := h.of_group
  obtain ⟨hfour, hdigits⟩ := hyear.of_times_one
  exact ⟨hfour, fun c hc => Text.digit_of_ignoreCase (hdigits c hc), h.noted_group (plain_times_one _ 4)⟩

/-- The pattern for a day reads one, and its group notes the digits. -/
theorem dayText_of_reads (marks : Text) {n : Nat} {q : Pattern}
    (h : Reads (maybe (.seq (.group n (Pattern.between 1 1 (one CharSet.digit.ignoreCase))) q)) r t r') (hq : q.Plain)
    (hmarks : ∀ {r t r'}, Reads q r t r' → ∃ b, Text.isBlank b ∧ t = marks ++ [b]) :
    ∃ o, DayText marks o t ∧ r'.noted = (o.map fun s => (n, s)).toList ++ r.noted := by
  cases h with
  | left h =>
    obtain ⟨s, v, _, rfl, hday, hrest⟩ := h.of_seq
    obtain ⟨b, hblank, rfl⟩ := hmarks hrest
    obtain ⟨_, hdigits, -⟩ := hday.of_group
    obtain ⟨hpos, hle, hdigits⟩ := hdigits.of_between_one
    refine ⟨some s, .some hpos hle (fun c hc => Text.digit_of_ignoreCase (hdigits c hc)) hblank, ?_⟩
    rw [hrest.noted_eq hq, hday.noted_group (plain_between_one _ 1 1)]
    rfl
  | right h =>
    cases h
    exact ⟨none, .none, rfl⟩

theorem accepts_of_dayText (marks : Text) (n : Nat) {q : Pattern} (hq : ∀ b, Text.isBlank b → q.Accepts (marks ++ [b]))
    (h : DayText marks o t) :
    (maybe (.seq (.group n (Pattern.between 1 1 (one CharSet.digit.ignoreCase))) q)).Accepts t := by
  cases h with
  | none => exact accepts_empty.right
  | some hpos hle hdigit hblank =>
    have hday := (accepts_between_one 1 hpos hle fun c hc => Text.ignoreCase_of_mem (hdigit c hc)).group n
    exact (hday.seq (hq _ hblank)).left

/-- Whatever the pattern matches is made up of parts, which its groups note. -/
theorem exists_parts_of_match (ht : ∀ u, t ≠ u ++ ['\n']) (h : WrittenDate.pattern.match? t = some m) :
    ∃ p : Parts, p.MakeUp t ∧ IsMonthWord p.month ∧
      m.group? 1 = p.first ∧ m.group? 2 = some p.month ∧ m.group? 3 = p.second ∧ m.group? 4 = some p.year := by
  obtain ⟨w, hread⟩ := reads_of_match? h
  have hrest : t = w ++ m.stop.rest := hread.advance.1
  rw [WrittenDate.pattern_eq] at hread
  obtain ⟨_, _, _, rfl, hstart, hread⟩ := hread.of_seq
  obtain ⟨d, _, _, rfl, hfirst, hread⟩ := hread.of_seq
  obtain ⟨month, _, _, rfl, hmonth, hread⟩ := hread.of_seq
  obtain ⟨stop, _, _, rfl, hstop, hread⟩ := hread.of_seq
  obtain ⟨space, _, _, rfl, hspace, hread⟩ := hread.of_seq
  obtain ⟨e, _, _, rfl, hsecond, hread⟩ := hread.of_seq
  obtain ⟨year, _, _, rfl, hyear, hend⟩ := hread.of_seq
  cases hstart
  obtain ⟨rfl, rfl, hend⟩ := hend.of_lineEnd
  obtain ⟨first, hd, hfirst⟩ := dayText_of_reads [] hfirst trivial blank_of_reads
  obtain ⟨hword, hmonth⟩ := month_of_reads hmonth
  have hstops : stop = [] ∨ stop = ['.'] := (Reads.of_maybe hstop).imp_right (mark_of_reads rfl)
  obtain ⟨b, hb, rfl⟩ := blank_of_reads hspace
  obtain ⟨second, he, hsecond⟩ := dayText_of_reads [','] hsecond ⟨trivial, trivial⟩ fun hmarks => by
    obtain ⟨_, _, _, rfl, hcomma, hblank⟩ := hmarks.of_seq
    obtain ⟨b, hb, rfl⟩ := blank_of_reads hblank
    exact ⟨b, hb, congrArg (· ++ [b]) (mark_of_reads rfl hcomma)⟩
  obtain ⟨hfour, hdigits, hyear⟩ := year_of_reads hyear
  have hnil : m.stop.rest = [] := by
    refine hend.resolve_right fun hnewline => ?_
    rw [hnewline] at hrest
    exact ht _ hrest
  have hnoted : Reach.noted ⟨m.stop, m.captures⟩ =
      (4, year) :: ((second.map fun s => (3, s)).toList ++
        (2, month) :: ((first.map fun s => (1, s)).toList ++ [])) := by
    rw [hyear, hsecond, hspace.noted_eq trivial, hstop.noted_eq ⟨trivial, trivial⟩, hmonth, hfirst]
    rfl
  simp only [group?_eq_lookup, hnoted]
  refine ⟨⟨first, month, second, year⟩, ⟨d, stop, b, e, ?_, hd, hstops, hb, he, hfour, hdigits⟩, hword, ?_⟩
  · rw [hrest, hnil]
    simp
  · cases first <;> cases second <;> exact ⟨rfl, rfl, rfl, rfl⟩

theorem isSome_match? (h : p.MakeUp t) (hword : IsMonthWord p.month) : (WrittenDate.pattern.match? t).isSome := by
  obtain ⟨d, stop, b, e, rfl, hd, hstop, hb, he, hyear, hdigits⟩ := h
  have hfirst := accepts_of_dayText [] 1 (q := one CharSet.blank.ignoreCase)
    (fun c hc => accepts_one (Text.ignoreCase_of_mem hc)) hd
  have hmonth := (accepts_atLeast_one hword.three_le hword.letters).group 2
  have hdot : (maybe (one (CharSet.only '.').ignoreCase)).Accepts stop := by
    rcases hstop with rfl | rfl
    · exact accepts_empty.right
    · exact (accepts_one (by decide)).left
  have hblank : (one CharSet.blank.ignoreCase).Accepts [b] := accepts_one (Text.ignoreCase_of_mem hb)
  have hsecond := accepts_of_dayText [','] 3
    (q := .seq (one (CharSet.only ',').ignoreCase) (one CharSet.blank.ignoreCase))
    (fun c hc => Accepts.seq (w := [',']) (accepts_one (by decide)) (accepts_one (Text.ignoreCase_of_mem hc))) he
  have hlast := (accepts_times_one hyear fun c hc => Text.ignoreCase_of_mem (hdigits c hc)).group 4
  have hall := hfirst.seq_rest (hmonth.seq_rest (hdot.seq_rest (hblank.seq_rest (hsecond.seq_rest
    (hlast.seq_rest acceptsRest_lineEnd)))))
  rw [List.append_nil] at hall
  rw [WrittenDate.pattern_eq]
  exact hall.isSome_match? (by simp [Direct, maybe, Pattern.between, atLeast, times, upTo, lineEnd])

theorem around_of_dayText (h : DayText marks o t) (hmarks : ∀ c ∈ marks, WrittenDate.Around c) :
    ∀ c ∈ t, WrittenDate.Around c := by
  cases h with
  | none => exact List.forall_mem_nil _
  | some hpos hle hdigit hblank =>
    simp only [List.forall_mem_append, List.forall_mem_singleton]
    exact ⟨fun c hc => .inr (.inl (Text.ignoreCase_of_mem (hdigit c hc))), hmarks, .inl hblank⟩

/-- What stands around the month has no letters. -/
theorem not_letter_of_around {c : Char} (h : WrittenDate.Around c) : CharSet.lower.ignoreCase c = false := by
  rcases h with hblank | hdigit | rfl | rfl
  · exact not_letter_of_isBlank hblank
  · exact not_letter_of_digit (Text.digit_of_ignoreCase hdigit)
  · rfl
  · rfl

/-- The month stands among digits, blanks and marks, with the year behind it. -/
theorem MakeUp.hasMonth (h : p.MakeUp t) (hword : IsMonthWord p.month) : WrittenDate.HasMonth t := by
  obtain ⟨d, stop, b, e, rfl, hd, hstop, hb, he, hyear, hdigits⟩ := h
  have hfigure : ∀ c ∈ p.year, CharSet.digit.ignoreCase c := fun c hc => Text.ignoreCase_of_mem (hdigits c hc)
  have hdots : ∀ c ∈ stop, WrittenDate.Around c := by
    rcases hstop with rfl | rfl
    · exact List.forall_mem_nil _
    · exact List.forall_mem_singleton.mpr (.inr (.inr (.inl rfl)))
  have hcomma : ∀ c ∈ [','], WrittenDate.Around c := List.forall_mem_singleton.mpr (.inr (.inr (.inr rfl)))
  refine ⟨d, p.month, stop ++ b :: (e ++ p.year), rfl, around_of_dayText hd (List.forall_mem_nil _), hword.letters,
    ?_, ?_⟩
  · simp only [List.forall_mem_append, List.forall_mem_cons]
    exact ⟨hdots, .inl hb, around_of_dayText he hcomma, fun c hc => .inr (.inl (hfigure c hc))⟩
  · obtain ⟨c, hc⟩ := List.exists_mem_of_length_pos (l := p.year) (by omega)
    exact ⟨c, by simp [hc], hfigure c hc⟩

/-- The letters of the month tell the parts apart. -/
theorem MakeUp.unique (h : p.MakeUp t) (h' : p'.MakeUp t) (hword : IsMonthWord p.month)
    (hword' : IsMonthWord p'.month) : p = p' := by
  obtain ⟨first, month, second, year⟩ := p
  obtain ⟨first', month', second', year'⟩ := p'
  obtain ⟨d, stop, b, e, rfl, hd, hstop, hb, he, hyear, hdigits⟩ := h
  obtain ⟨d', stop', b', e', hsame, hd', hstop', hb', he', hyear', hdigits'⟩ := h'
  dsimp only at *
  have hhead : ∀ {stop w : Text} {b : Char}, (stop = [] ∨ stop = ['.']) → Text.isBlank b →
      ∀ c ∈ (stop ++ b :: w).head?, CharSet.lower.ignoreCase c = false := by
    rintro stop w b (rfl | rfl) hb c hc
    · obtain rfl := Option.some.inj hc
      exact not_letter_of_isBlank hb
    · obtain rfl := Option.some.inj hc
      rfl
  have hfront : ∀ {month w : Text}, IsMonthWord month →
      ∀ c ∈ (month ++ w).head?, (!CharSet.lower.ignoreCase c) = false := by
    intro month w hword c hc
    obtain ⟨x, month, rfl, hx⟩ := hword.exists_cons
    obtain rfl := Option.some.inj hc
    rw [hx]
    rfl
  obtain ⟨rfl, hbehind⟩ := Text.eq_of_append_eq_of_class (p := fun c => !CharSet.lower.ignoreCase c)
    (fun c hc => by rw [not_letter_of_around (around_of_dayText hd (List.forall_mem_nil _) c hc)]; rfl)
    (fun c hc => by rw [not_letter_of_around (around_of_dayText hd' (List.forall_mem_nil _) c hc)]; rfl)
    (hfront hword) (hfront hword') hsame
  obtain ⟨rfl, hrest⟩ := Text.eq_of_append_eq_of_class hword.letters hword'.letters (hhead hstop hb)
    (hhead hstop' hb') hbehind
  have hblanks : b = b' ∧ e ++ year = e' ++ year' := by
    rcases hstop with rfl | rfl <;> rcases hstop' with rfl | rfl <;> simp only [List.nil_append, List.cons_append,
      List.cons.injEq] at hrest
    · exact hrest
    · rw [hrest.1] at hb
      exact absurd hb (by decide)
    · rw [← hrest.1] at hb'
      exact absurd hb' (by decide)
    · exact hrest.2
  obtain ⟨rfl, rfl⟩ := List.append_inj' hblanks.2 (hyear.trans hyear'.symm)
  rw [hd.unique hd', he.unique he']

/-- There is no blank at the ends. -/
theorem MakeUp.trim_eq (h : p.MakeUp t) (hword : IsMonthWord p.month) : Text.trim t = t := by
  obtain ⟨d, stop, b, e, rfl, hd, -, -, -, hfour, hdigits⟩ := h
  have hdigit : ∀ {c : Char}, CharSet.digit c → Text.isBlank c = false := fun hc =>
    Text.not_isBlank_of_isDecimal (Text.isDecimal_of_digit hc)
  refine Text.trim_eq_self_of_ends (fun c hc => ?_) (fun c hc => ?_)
  · generalize hfirst : p.first = first at hd
    cases hd with
    | none =>
      obtain ⟨x, month, hmonth, hx⟩ := hword.exists_cons
      rw [hmonth] at hc
      obtain rfl := Option.some.inj hc
      exact Text.not_isBlank_of_ignoreCase hx
    | @some s b hpos hle hday =>
      obtain ⟨x, s, rfl⟩ := List.exists_cons_of_length_pos hpos
      obtain rfl := Option.some.inj hc
      exact hdigit (hday x List.mem_cons_self)
  · obtain ⟨year, x, hyear⟩ := (List.eq_nil_or_concat' p.year).resolve_left
      (List.ne_nil_of_length_pos (by omega))
    have hlast : d ++ (p.month ++ (stop ++ b :: (e ++ p.year))) =
        d ++ (p.month ++ (stop ++ b :: (e ++ year))) ++ [x] := by
      simp [hyear]
    rw [hlast, List.getLast?_concat] at hc
    obtain rfl := Option.some.inj hc
    exact hdigit (hdigits x (by simp [hyear]))

end Layout

end Parts

/-- The number that plain digits stand for. -/
def value (s : Text) : Nat :=
  Nat.ofDigitChars 10 s 0

section Values

variable {s : Text} {n width : Nat}

theorem integer?_of_digits (hpos : 1 ≤ s.length) (hle : s.length ≤ 4) (hdigits : ∀ c ∈ s, CharSet.digit c) :
    Text.integer? s = some (value s : Int) := by
  have hdecimal : ∀ c ∈ s, Text.isDecimal c := fun c hc => Text.isDecimal_of_digit (hdigits c hc)
  have hmax : s.length ≤ Text.maxNumeralDigits := Nat.le_trans hle (by decide)
  have hvalues : s.filterMap Text.digitValue? = s.map fun c => c.toNat - '0'.toNat := by
    rw [List.filterMap_eq_map_iff_forall_eq_some]
    intro c hc
    have hbounds := Text.digit_iff.mp (hdigits c hc)
    exact Text.digitValue?_of_lt (hdecimal c hc) (by omega)
  rw [Text.integer?_of_isDecimal hdecimal, Text.natural?_of_isDecimal (List.ne_nil_of_length_pos hpos) hdecimal,
    if_pos hmax, hvalues, Text.ofDigits, List.foldl_map]
  rfl

theorem digit_padded (width n : Nat) : ∀ c ∈ Text.padded width n, CharSet.digit c := by
  refine List.forall_mem_append.mpr ⟨fun c hc => ?_, Text.digit_ofNat n⟩
  rw [List.eq_of_mem_replicate hc]
  decide

theorem value_ofNat (n : Nat) : value (Text.ofNat n) = n :=
  Nat.ofDigitChars_toDigits (by decide) (by decide)

theorem value_padded (width n : Nat) : value (Text.padded width n) = n := by
  rw [value, Text.padded, Nat.ofDigitChars_append, Nat.ofDigitChars_replicate_zero, Nat.mul_zero]
  exact value_ofNat n

end Values

namespace Parts

/-- The day that the parts give; if there are two, the one in front of the month. -/
def day? (p : Parts) : Option Nat :=
  (p.first.or p.second).map value

/-- The month, the year and this day, or else the first, are those of the date. -/
structure Name (p : Parts) (day : Option Nat) (x : Date) : Prop where
  month : SpellsMonth p.month x.month
  year : value p.year = x.year
  day : day.getD 1 = x.day

/-- No day of a month is zero. -/
theorem Name.ne_zero {p : Parts} {day : Option Nat} {x : Date} (h : p.Name day x) : day ≠ some 0 := by
  rintro rfl
  have hpos : 1 ≤ x.day := x.isDay.2.2.1
  have hday : 0 = x.day := h.day
  omega

/-- What is read of the parts. -/
def written (p : Parts) : WrittenDate :=
  ⟨p.day?.map fun n : Nat => (n : Int), p.month, value p.year⟩

end Parts

namespace WrittenDate

/-- The text is read, and names the date. -/
def GivesDate (t : Text) (x : Date) : Prop :=
  ∃ w, read? t = some w ∧ w.date = .ok (some x)

/-- The text is read as a date exactly if it is made up of parts with at most one day, which name the date. -/
def ReadExactly (t : Text) : Prop :=
  ∀ x, GivesDate t x ↔
    ∃ p : Parts, p.MakeUp (Text.trim t) ∧ (p.first = none ∨ p.second = none) ∧ p.Name p.day? x

section Read

variable {p : Parts} {t : Text} {w : WrittenDate} {x : Date}

/-- A day zero counts as none. -/
theorem date_written (hword : IsMonthWord p.month) :
    p.written.date = .ok (some x) ↔ p.Name (p.day?.filter (· ≠ 0)) x := by
  have hday : ((p.written.day.filter (· ≠ 0)).getD 1 : Int) = ((p.day?.filter (· ≠ 0)).getD 1 : Nat) := by
    rw [Parts.written]
    cases p.day? with
    | none => rfl
    | some n =>
      rw [Option.map_some, Option.filter_some, Option.filter_some]
      by_cases hn : n = 0
      · simp [hn]
      · simp [hn]
  have hnumber : ∀ n, monthNumber p.written.month = .ok (some n) ↔ SpellsMonth p.month n := fun n =>
    monthNumber_eq_some_iff hword.letters
  unfold WrittenDate.date
  constructor
  · intro h
    split at h
    · cases h
    · cases h
    · rename_i n hn
      obtain ⟨hyear, hmonth, hdays⟩ := Date.ofParts_eq_some_iff.mp h
      rw [Int.ofNat_inj.mp hmonth, hnumber] at hn
      exact ⟨hn, Int.ofNat_inj.mp hyear, Int.ofNat_inj.mp (hday.symm.trans hdays)⟩
  · rintro ⟨hmonth, hyear, hdays⟩
    rw [(hnumber _).mpr hmonth]
    refine Date.ofParts_eq_some_iff.mpr ⟨congrArg Int.ofNat hyear, rfl, hday.trans (congrArg Int.ofNat hdays)⟩

theorem read?_of_match {m : Match} (hm : pattern.match? (Text.trim t) = some m) :
    ∃ p : Parts, p.MakeUp (Text.trim t) ∧ IsMonthWord p.month ∧
      read? t = match p.written.date with
        | .ok (some _) => some p.written
        | _ => none := by
  have hlast : ∀ u, Text.trim t ≠ u ++ ['\n'] := fun u hu =>
    absurd (Text.not_isBlank_of_trim_eq hu) (by decide)
  obtain ⟨p, hmake, hword, hfirst, hmonth, hsecond, hyear⟩ := Parts.exists_parts_of_match hlast hm
  refine ⟨p, hmake, hword, ?_⟩
  obtain ⟨d, stop, b, e, -, hd, -, -, he, hfour, hdigits⟩ := hmake
  have hvalue : ∀ {marks : Text} {s t : Text}, DayText marks (some s) t → Text.integer? s = some (value s : Int) := by
    intro marks s t h
    cases h with
    | some hpos hle hdigit hblank => exact integer?_of_digits hpos (Nat.le_trans hle (by decide)) hdigit
  have hday : (p.first <|> p.second).bind Text.integer? = p.written.day := by
    rw [Parts.written, Parts.day?]
    cases hp : p.first with
    | some s =>
      rw [hp] at hd
      exact hvalue hd
    | none =>
      cases hp' : p.second with
      | some s =>
        rw [hp'] at he
        exact hvalue he
      | none => rfl
  have hyears : Text.integer? p.year = some (value p.year : Int) :=
    integer?_of_digits (by omega) (by omega) hdigits
  unfold read?
  simp only [hm, hfirst, hmonth, hsecond, hyear, hday, hyears, Option.bind_eq_bind, Option.bind_some, Option.getD_some]
  rfl

theorem read?_eq_some_iff :
    read? t = some w ↔
      ∃ (p : Parts) (x : Date), p.MakeUp (Text.trim t) ∧ p.Name (p.day?.filter (· ≠ 0)) x ∧ w = p.written := by
  constructor
  · intro h
    have hmatch : ∃ m, pattern.match? (Text.trim t) = some m := by
      simp only [read?, Option.bind_eq_bind, Option.bind_eq_some_iff] at h
      obtain ⟨m, hm, -⟩ := h
      exact ⟨m, hm⟩
    obtain ⟨m, hm⟩ := hmatch
    obtain ⟨p, hmake, hword, hread⟩ := read?_of_match hm
    rw [hread] at h
    split at h
    · rename_i x hx
      exact ⟨p, x, hmake, (date_written hword).mp hx, (Option.some.inj h).symm⟩
    · cases h
  · rintro ⟨p, x, hmake, hname, rfl⟩
    have hword := hname.month.isMonthWord
    obtain ⟨m, hm⟩ := Option.isSome_iff_exists.mp (Parts.isSome_match? hmake hword)
    obtain ⟨p', hmake', hword', hread⟩ := read?_of_match hm
    obtain rfl := hmake.unique hmake' hword hword'
    rw [hread, (date_written hword).mpr hname]

theorem hasMonth_of_read? (h : read? t = some w) : HasMonth t := by
  obtain ⟨p, x, hmake, hname, -⟩ := read?_eq_some_iff.mp h
  exact (hmake.hasMonth hname.month.isMonthWord).of_trim

theorem givesDate_iff :
    GivesDate t x ↔ ∃ p : Parts, p.MakeUp (Text.trim t) ∧ p.Name (p.day?.filter (· ≠ 0)) x := by
  constructor
  · rintro ⟨w, hw, hx⟩
    obtain ⟨p, x', hmake, hname, rfl⟩ := read?_eq_some_iff.mp hw
    exact ⟨p, hmake, (date_written hname.month.isMonthWord).mp hx⟩
  · rintro ⟨p, hmake, hname⟩
    exact ⟨p.written, read?_eq_some_iff.mpr ⟨p, x, hmake, hname, rfl⟩,
      (date_written hname.month.isMonthWord).mpr hname⟩

/-- Two days, or a day zero, are what is read besides. -/
theorem readExactly_iff :
    ReadExactly t ↔ ∀ (p : Parts) (x : Date), p.MakeUp (Text.trim t) → p.Name (p.day?.filter (· ≠ 0)) x →
      (p.first = none ∨ p.second = none) ∧ p.day? ≠ some 0 := by
  constructor
  · intro h p x hmake hname
    obtain ⟨p', hmake', hone, hname'⟩ := (h x).mp (givesDate_iff.mpr ⟨p, hmake, hname⟩)
    obtain rfl := hmake.unique hmake' hname.month.isMonthWord hname'.month.isMonthWord
    exact ⟨hone, hname'.ne_zero⟩
  · intro h x
    rw [givesDate_iff]
    constructor
    · rintro ⟨p, hmake, hname⟩
      obtain ⟨hone, hzero⟩ := h p x hmake hname
      rw [filter_ne_eq_self hzero] at hname
      exact ⟨p, hmake, hone, hname⟩
    · rintro ⟨p, hmake, -, hname⟩
      refine ⟨p, hmake, ?_⟩
      rwa [filter_ne_eq_self hname.ne_zero]

/-- A date that is written out is read again. -/
theorem givesDate_of_makeUp (hmake : p.MakeUp t) (hname : p.Name p.day? x) : GivesDate t x := by
  rw [givesDate_iff, hmake.trim_eq hname.month.isMonthWord]
  exact ⟨p, hmake, by rwa [filter_ne_eq_self hname.ne_zero]⟩

end Read

section Rendering

variable {x : Date} {day month stop : Text}

/-- The numeral of a day, perhaps with a zero in front. -/
theorem numeral_of_day (h : day ∈ [Text.ofNat x.day, Text.padded 2 x.day]) :
    1 ≤ day.length ∧ day.length ≤ 2 ∧ (∀ c ∈ day, CharSet.digit c) ∧ value day = x.day := by
  have hlt : x.day < 10 ^ 2 := Nat.lt_of_le_of_lt (Nat.le_trans x.isDay.2.2.2 (Date.daysInMonth_le _ _).2) (by decide)
  rcases List.mem_pair.mp h with rfl | rfl
  · exact ⟨List.length_pos_of_ne_nil (Text.ofNat_ne_nil _), Nat.toDigits_length 10 _ 2 (by decide) hlt, Text.digit_ofNat _,
      value_ofNat _⟩
  · have hlength := Text.length_padded hlt (by decide)
    exact ⟨by omega, by omega, digit_padded 2 _, value_padded 2 _⟩

theorem numeral_of_year (x : Date) : (Text.padded 4 x.year).length = 4 ∧
    (∀ c ∈ Text.padded 4 x.year, CharSet.digit c) ∧ value (Text.padded 4 x.year) = x.year :=
  ⟨Text.length_padded (Nat.lt_of_le_of_lt x.isDay.1.2 (by decide)) (by decide), digit_padded 4 _, value_padded 4 _⟩

/-- The day in front of the month. -/
theorem givesDate_dayFirst (hmonth : SpellsMonth month x.month) (hstop : stop = [] ∨ stop = ['.'])
    (hday : day ∈ [Text.ofNat x.day, Text.padded 2 x.day]) :
    GivesDate (day ++ ' ' :: (month ++ (stop ++ ' ' :: Text.padded 4 x.year))) x := by
  obtain ⟨hpos, hle, hdigit, hvalue⟩ := numeral_of_day hday
  obtain ⟨hfour, hdigits, hyear⟩ := numeral_of_year x
  refine givesDate_of_makeUp (p := ⟨some day, month, none, Text.padded 4 x.year⟩) ?_ ⟨hmonth, hyear, hvalue⟩
  exact ⟨day ++ ([] ++ [' ']), stop, ' ', [], by simp, .some hpos hle hdigit rfl, hstop, rfl, .none, hfour, hdigits⟩

/-- The day behind the month. -/
theorem givesDate_dayBehind (hmonth : SpellsMonth month x.month) (hstop : stop = [] ∨ stop = ['.'])
    (hday : day ∈ [Text.ofNat x.day, Text.padded 2 x.day]) :
    GivesDate (month ++ (stop ++ ' ' :: (day ++ ',' :: ' ' :: Text.padded 4 x.year))) x := by
  obtain ⟨hpos, hle, hdigit, hvalue⟩ := numeral_of_day hday
  obtain ⟨hfour, hdigits, hyear⟩ := numeral_of_year x
  refine givesDate_of_makeUp (p := ⟨none, month, some day, Text.padded 4 x.year⟩) ?_ ⟨hmonth, hyear, hvalue⟩
  exact ⟨[], stop, ' ', day ++ ([','] ++ [' ']), by simp, .none, hstop, rfl, .some hpos hle hdigit rfl, hfour,
    hdigits⟩

end Rendering

/-- A text is read as a date exactly if its parts name one, where the day in front of the month counts if there are two,
and a day zero counts as none.  So the texts that are read are those with at most one day, which names a day of that
month or is missing, exactly unless there are two days or a day zero.  Every date is read again however it is written
out. -/
theorem givesDate_iff_name (t : Text) :
    (∀ w, read? t = some w → ∃ x, w.date = .ok (some x)) ∧
    (∀ x, GivesDate t x ↔ ∃ p : Parts, p.MakeUp (Text.trim t) ∧ p.Name (p.day?.filter (· ≠ 0)) x) ∧
    (ReadExactly t ↔ ∀ (p : Parts) (x : Date), p.MakeUp (Text.trim t) → p.Name (p.day?.filter (· ≠ 0)) x →
      (p.first = none ∨ p.second = none) ∧ p.day? ≠ some 0) ∧
    ∀ (x : Date) (day month stop : Text), SpellsMonth month x.month → stop = [] ∨ stop = ['.'] →
      day ∈ [Text.ofNat x.day, Text.padded 2 x.day] →
      GivesDate (day ++ ' ' :: (month ++ (stop ++ ' ' :: Text.padded 4 x.year))) x ∧
      GivesDate (month ++ (stop ++ ' ' :: (day ++ ',' :: ' ' :: Text.padded 4 x.year))) x :=
  ⟨fun _ => exists_date_of_read?, fun _ => givesDate_iff, readExactly_iff, fun _ _ _ _ hmonth hstop hday =>
    ⟨givesDate_dayFirst hmonth hstop hday, givesDate_dayBehind hmonth hstop hday⟩⟩

/-- A day zero is read as the first, and the second of two days makes no difference. -/
theorem not_readExactly : ¬ReadExactly "0 March 2024".toList ∧ ¬ReadExactly "4 March 5, 2024".toList := by
  have hmarch : SpellsMonth "March".toList 3 := ⟨by decide, by decide, "march", rfl, by decide⟩
  constructor
  · intro h
    have hmake : Parts.MakeUp ⟨some "0".toList, "March".toList, none, "2024".toList⟩ "0 March 2024".toList :=
      ⟨_, [], ' ', [], rfl, .some (by decide) (by decide) (by decide) rfl, .inl rfl, rfl, .none, rfl, by decide⟩
    exact (readExactly_iff.mp h _ ⟨2024, 3, 1, by decide⟩ hmake ⟨hmarch, rfl, rfl⟩).2 rfl
  · intro h
    have hmake : Parts.MakeUp ⟨some "4".toList, "March".toList, some "5".toList, "2024".toList⟩
        "4 March 5, 2024".toList :=
      ⟨_, [], ' ', _, rfl, .some (by decide) (by decide) (by decide) rfl, .inl rfl, rfl,
        .some (by decide) (by decide) (by decide) rfl, rfl, by decide⟩
    have hone := (readExactly_iff.mp h _ ⟨2024, 3, 4, by decide⟩ hmake ⟨hmarch, rfl, rfl⟩).1
    rcases hone with hnone | hnone <;> cases hnone

end WrittenDate

end Calendar

end DraftLint
