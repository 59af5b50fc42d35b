import DraftLint.Address.Host
import DraftLint.Proofs.Address.Literals
import DraftLint.Proofs.Pattern.Context
import DraftLint.Proofs.Pattern.Groups

/-!
# Host names between blanks

A host name that stands between blanks is matched as a whole.  The look-ahead alone rules out that less of it is taken:
within a name there is no place where nothing of the name goes on.  And as the look-behind does not hold within a name,
nothing else is matched there.
-/

namespace DraftLint.Address.Host

open Pattern

section Names

/-- A letter, a digit or a hyphen. -/
def isNameChar (c : Char) : Bool :=
  c.isAlphanum || c == '-'

/-- Up to 63 letters, digits and hyphens with a letter or a digit at both ends. -/
structure IsLabel (l : Text) : Prop where
  length_le : l.length ≤ 63
  chars : ∀ c ∈ l, isNameChar c
  first : l.head?.any Char.isAlphanum
  last : l.getLast?.any Char.isAlphanum

/-- Letters only, or an internationalized label. -/
inductive IsTopLabel : Text → Prop
  | letters {l : Text} (hlo : 2 ≤ l.length) (hhi : l.length ≤ 63) (h : ∀ c ∈ l, c.isAlpha) : IsTopLabel l
  | international {x n : Char} {l : Text} (hx : x = 'x' ∨ x = 'X') (hn : n = 'n' ∨ n = 'N') (hlo : 1 ≤ l.length)
      (hhi : l.length ≤ 59) (h : ∀ c ∈ l, isNameChar c) : IsTopLabel (x :: n :: '-' :: '-' :: l)

/-- Labels, at least one of them, and a last one, with full stops between. -/
def IsName (s : Text) : Prop :=
  ∃ ls top, ls ≠ [] ∧ (∀ l ∈ ls, IsLabel l) ∧ IsTopLabel top ∧ s = Text.join ['.'] (ls ++ [top])

/-- Labels with a full stop behind each, and the last one. -/
def nameText (ls : List Text) (top : Text) : Text :=
  ls.flatMap (· ++ ['.']) ++ top

variable {c : Char} {l s t top u x : Text} {ls : List Text}

theorem lt_of_isAlphanum (h : c.isAlphanum) : c.toNat < 0x80 := by
  have h : (decide (c.val ≥ 'A'.val ∧ c.val ≤ 'Z'.val) || decide (c.val ≥ 'a'.val) && decide (c.val ≤ 'z'.val) ||
    decide (c.val ≥ '0'.val) && decide (c.val ≤ '9'.val)) = true := h
  simp only [Bool.or_eq_true, Bool.and_eq_true, decide_eq_true_eq, ge_iff_le, UInt32.le_iff_toNat_le] at h
  have hval : c.val.toNat = c.toNat := rfl
  have hends : 'Z'.val.toNat < 0x80 ∧ 'z'.val.toNat < 0x80 ∧ '9'.val.toNat < 0x80 := by decide
  omega

/-- What holds of the letters, the digits and the hyphen is found out by looking at ASCII. -/
theorem forall_nameChar {p : Char → Prop} (hp : ∀ n < 0x80, isNameChar (Char.ofNat n) → p (Char.ofNat n))
    (h : isNameChar c) : p c := by
  have hlt : c.toNat < 0x80 := by
    rcases Bool.or_eq_true_iff.mp h with hc | hc
    · exact lt_of_isAlphanum hc
    · obtain rfl := beq_iff_eq.mp hc
      decide
  exact Text.forall_of_lt (p := fun c => isNameChar c → p c) hp c hlt h

theorem isNameChar_of_isAlphanum (h : c.isAlphanum) : isNameChar c := by
  rw [isNameChar, h, Bool.true_or]

theorem isAlphanum_of_isAlpha (h : c.isAlpha) : c.isAlphanum := by
  rw [Char.isAlphanum, h, Bool.true_or]

theorem IsTopLabel.chars (h : IsTopLabel top) : ∀ c ∈ top, isNameChar c := by
  cases h with
  | letters hlo hhi h => exact fun c hc => isNameChar_of_isAlphanum (isAlphanum_of_isAlpha (h c hc))
  | international hx hn hlo hhi h =>
    have hmark : ∀ c ∈ ['x', 'X', 'n', 'N', '-'], isNameChar c := by decide
    refine List.forall_mem_cons.mpr ⟨hmark _ (by rcases hx with rfl | rfl <;> decide), List.forall_mem_cons.mpr
      ⟨hmark _ (by rcases hn with rfl | rfl <;> decide), List.forall_mem_cons.mpr ⟨rfl, List.forall_mem_cons.mpr ⟨rfl, h⟩⟩⟩⟩

theorem IsTopLabel.first (h : IsTopLabel top) : top.head?.any Char.isAlphanum := by
  cases h with
  | letters hlo hhi h =>
    cases top with
    | nil => simp at hlo
    | cons c top => exact isAlphanum_of_isAlpha (h c List.mem_cons_self)
  | international hx hn hlo hhi h => rcases hx with rfl | rfl <;> rfl

theorem not_dot_of_isNameChar (h : isNameChar c) : c ≠ '.' := by
  rintro rfl
  exact absurd h (by decide)

theorem first_nameText (hls : ∀ l ∈ ls, IsLabel l) (htop : IsTopLabel top) :
    (nameText ls top).head?.any Char.isAlphanum := by
  cases ls with
  | nil => exact htop.first
  | cons l ls =>
    have hfirst := (hls l List.mem_cons_self).first
    cases l with
    | nil => cases hfirst
    | cons c l => exact hfirst

/-- Behind every full stop of a name there is a letter or a digit. -/
theorem first_of_nameText_eq (hls : ∀ l ∈ ls, IsLabel l) (htop : IsTopLabel top)
    (h : nameText ls top = u ++ '.' :: x) : x.head?.any Char.isAlphanum := by
  induction ls generalizing u with
  | nil =>
    have hmem : '.' ∈ top := by
      rw [show top = u ++ '.' :: x from h]
      exact List.mem_append_right u List.mem_cons_self
    exact absurd rfl (not_dot_of_isNameChar (htop.chars _ hmem))
  | cons l ls ih =>
    obtain ⟨hl, hmore⟩ := List.forall_mem_cons.mp hls
    rw [nameText, List.flatMap_cons, List.append_assoc, List.append_assoc, List.singleton_append, ← nameText] at h
    rcases List.append_eq_append_iff.mp h with ⟨v, rfl, hv⟩ | ⟨v, rfl, hv⟩
    · cases v with
      | nil =>
        rw [← (List.cons.inj hv).2]
        exact first_nameText hmore htop
      | cons d v => exact ih hmore (List.cons.inj hv).2
    · cases v with
      | nil =>
        rw [(List.cons.inj hv).2]
        exact first_nameText hmore htop
      | cons d v =>
        obtain ⟨rfl, -⟩ := List.cons.inj hv
        exact absurd rfl (not_dot_of_isNameChar (hl.chars '.' (List.mem_append_right u List.mem_cons_self)))

theorem forall_mem_nameText (hls : ∀ l ∈ ls, IsLabel l) (htop : IsTopLabel top) :
    ∀ c ∈ nameText ls top, isNameChar c ∨ c = '.' := by
  refine List.forall_mem_append.mpr ⟨fun c hc => ?_, fun c hc => .inl (htop.chars c hc)⟩
  obtain ⟨l, hl, hc⟩ := List.mem_flatMap.mp hc
  rcases List.mem_append.mp hc with hc | hc
  · exact .inl ((hls l hl).chars c hc)
  · exact .inr (List.mem_singleton.mp hc)

/-- Names are made of letters, digits, hyphens and full stops, and have a letter or a digit behind each full stop. -/
theorem IsName.spec (h : IsName s) : s ≠ [] ∧ (∀ c ∈ s, isNameChar c ∨ c = '.') ∧
    ∀ u x, s = u ++ '.' :: x → x.head?.any Char.isAlphanum := by
  obtain ⟨ls, top, -, hls, htop, rfl⟩ := h
  rw [Text.join_concat, ← nameText]
  refine ⟨?_, forall_mem_nameText hls htop, fun u x => first_of_nameText_eq hls htop⟩
  intro hnil
  have hfirst := first_nameText hls htop
  rw [hnil] at hfirst
  cases hfirst

theorem IsName.not_isBlank (h : IsName s) : ∀ c ∈ s, Text.isBlank c = false := by
  intro c hc
  rcases h.spec.2.1 c hc with hc | rfl
  · exact forall_nameChar (p := fun c => Text.isBlank c = false) (by decide) hc
  · decide

end Names

section Pattern

/-- A letter or a digit, with what passes for one when case is ignored. -/
def edge : CharSet :=
  alphanumeric.ignoreCase

/-- The same or a hyphen. -/
def inner : CharSet :=
  (CharSet.or alphanumeric (.only '-')).ignoreCase

def dot : CharSet :=
  (CharSet.only '.').ignoreCase

def labelDot : Pattern :=
  seq (seq (one edge) (maybe (seq (upTo 61 (one inner)) (one edge)))) (one dot)

def topName : Pattern :=
  alt (between 2 61 (one CharSet.lower.ignoreCase))
    (seq (literal "xn--".toList).ignoreCase (between 1 58 (one inner)))

def wholeName : Pattern :=
  seq (seq labelDot (many labelDot)) topName

/-- What may not stand in front of a name. -/
def touchingBefore : CharSet :=
  (CharSet.or .word (.of ".-")).ignoreCase

/-- What may not stand behind a name. -/
def touchingBehind : CharSet :=
  (CharSet.or .word (.of "@-")).ignoreCase

/-- What may not stand behind a name and a full stop. -/
def touchingDot : CharSet :=
  (CharSet.or .word (.only '-')).ignoreCase

/-- Something goes on behind. -/
def goesOn : Pattern :=
  alt (one touchingBehind) (seq (one dot) (one touchingDot))

theorem pattern_eq : pattern =
    seq (anchor (.notAfter [touchingBefore])) (seq (group 1 wholeName) (notAhead goesOn)) := by
  have hlabel : (Pattern.seq label (lit ".")).ignoreCase = labelDot := by
    simp only [label, labelDot, ignoreCase, maybe, ignoreCase_upTo]
    rfl
  have htop : topLabel.ignoreCase = topName := by
    simp only [topLabel, topName, oneOf, ignoreCase, ignoreCase_between]
    rfl
  rw [wholeName, ← hlabel, ← htop]
  rfl

theorem plain_wholeName : wholeName.Plain :=
  have hlabel : labelDot.Plain := ⟨⟨trivial, ⟨plain_upTo_one inner 61, trivial⟩, trivial⟩, trivial⟩
  ⟨⟨hlabel, hlabel⟩, plain_between_one _ 2 61, ⟨trivial, trivial, trivial, trivial⟩, plain_between_one inner 1 58⟩

theorem steady_wholeName : wholeName.Steady :=
  have hone : ∀ s : CharSet, (one s).Steady := fun _ => trivial
  have hlabel : labelDot.Steady := ⟨⟨trivial, ⟨(hone inner).upTo 61, trivial⟩, trivial⟩, trivial⟩
  ⟨⟨hlabel, rfl, hlabel⟩, (hone _).between 2 61, ⟨trivial, trivial, trivial, trivial⟩, (hone inner).between 1 58⟩

theorem unblanked_wholeName : wholeName.Unblanked :=
  fun _ => Text.forall_blank (p := fun c => wholeName.avoids c) (by decide +kernel)

theorem unblanked_pattern : pattern.Unblanked := by
  intro c hc
  rw [pattern_eq, avoids, avoids, avoids, unblanked_wholeName c hc]
  rfl

variable {c : Char}

theorem edge_of_isAlphanum (h : c.isAlphanum) : edge c :=
  forall_nameChar (p := fun c => c.isAlphanum → edge c) (by decide) (isNameChar_of_isAlphanum h) h

theorem inner_of_isNameChar (h : isNameChar c) : inner c :=
  forall_nameChar (p := fun c => inner c) (by decide) h

theorem lower_of_isAlpha (h : c.isAlpha) : CharSet.lower.ignoreCase c :=
  forall_nameChar (p := fun c => c.isAlpha → CharSet.lower.ignoreCase c) (by decide)
    (isNameChar_of_isAlphanum (isAlphanum_of_isAlpha h)) h

theorem touchingBefore_of_mem (h : isNameChar c ∨ c = '.') : touchingBefore c := by
  rcases h with h | rfl
  · exact forall_nameChar (p := fun c => touchingBefore c) (by decide) h
  · decide

theorem touchingBehind_of_isNameChar (h : isNameChar c) : touchingBehind c :=
  forall_nameChar (p := fun c => touchingBehind c) (by decide) h

theorem touchingDot_of_isAlphanum (h : c.isAlphanum) : touchingDot c :=
  forall_nameChar (p := fun c => touchingDot c) (by decide) (isNameChar_of_isAlphanum h)

theorem not_touching_of_isBlank (h : Text.isBlank c) :
    touchingBefore c = false ∧ touchingBehind c = false ∧ dot c = false := by
  refine ⟨?_, ?_, ?_⟩
  · rw [touchingBefore, Text.ignoreCase_of_isBlank _ h, CharSet.or, CharSet.word, Text.not_isWord_of_isBlank h]
    exact Text.forall_blank (p := fun c => CharSet.of ".-" c = false) (by decide) h
  · rw [touchingBehind, Text.ignoreCase_of_isBlank _ h, CharSet.or, CharSet.word, Text.not_isWord_of_isBlank h]
    exact Text.forall_blank (p := fun c => CharSet.of "@-" c = false) (by decide) h
  · exact Text.forall_blank (p := fun c => dot c = false) (by decide) h

end Pattern

section Accepted

variable {l s top : Text}

theorem accepts_labelDot (h : IsLabel l) : labelDot.Accepts (l ++ ['.']) := by
  have hdot : (one dot).Accepts ['.'] := accepts_one (by decide)
  obtain ⟨hlength, hchars, hfirst, hlast⟩ := h
  cases l with
  | nil => cases hfirst
  | cons c l =>
    have hc : (one edge).Accepts [c] := accepts_one (edge_of_isAlphanum hfirst)
    rcases List.eq_nil_or_concat' l with rfl | ⟨mid, d, rfl⟩
    · exact (hc.seq accepts_empty.right).seq hdot
    · rw [← List.cons_append, List.getLast?_concat] at hlast
      simp only [List.length_cons, List.length_append, List.length_nil] at hlength
      have hmid : (upTo 61 (one inner)).Accepts mid := by
        refine accepts_upTo_one (by omega) fun x hx => inner_of_isNameChar (hchars x ?_)
        exact List.mem_cons_of_mem c (List.mem_append_left _ hx)
      exact (hc.seq (hmid.seq (accepts_one (edge_of_isAlphanum hlast))).left).seq hdot

theorem accepts_topName (h : IsTopLabel top) : topName.Accepts top := by
  cases h with
  | letters hlo hhi h => exact (accepts_between_one 61 hlo (by omega) fun c hc => lower_of_isAlpha (h c hc)).left
  | @international x n l hx hn hlo hhi h =>
    have hmark : (literal "xn--".toList).ignoreCase.Accepts [x, n, '-', '-'] := by
      refine (accepts_one ?_).seq ((accepts_one ?_).seq ((accepts_one (by decide)).seq (accepts_one (by decide))))
      · rcases hx with rfl | rfl <;> decide
      · rcases hn with rfl | rfl <;> decide
    exact (hmark.seq (accepts_between_one 58 hlo (by omega) fun c hc => inner_of_isNameChar (h c hc))).right

theorem accepts_wholeName (h : IsName s) : wholeName.Accepts s := by
  obtain ⟨ls, top, hne, hls, htop, rfl⟩ := h
  obtain ⟨l, ls, rfl⟩ := List.exists_cons_of_ne_nil hne
  obtain ⟨hl, hls⟩ := List.forall_mem_cons.mp hls
  rw [Text.join_concat, List.flatMap_cons, List.flatMap_def]
  refine ((accepts_labelDot hl).seq (accepts_many_flatten fun w hw => ?_)).seq (accepts_topName htop)
  obtain ⟨k, hk, rfl⟩ := List.mem_map.mp hw
  exact accepts_labelDot (hls k hk)

end Accepted

section Match

variable {s t u v w x : Text} {fuel : Nat} {captures : List Capture} {m : Match}

/-- Nothing goes on in front of a blank or the end. -/
theorem run_goesOn_eq_none (hv : ∀ c ∈ v.head?, Text.isBlank c) :
    goesOn.run fuel ⟨.amid u v, captures⟩ some = none := by
  have hnone : ∀ s : CharSet, (∀ c, Text.isBlank c → s c = false) → ∀ t r, ¬Reads (one s) ⟨.amid u v, captures⟩ t r := by
    intro s hs t r h
    obtain ⟨c, rfl, hc⟩ := h.of_one
    obtain ⟨w, _, rfl, -⟩ := h.exists_amid
    rw [hs c (hv c rfl)] at hc
    cases hc
  refine run_eq_none fun t r h => ?_
  cases h with
  | left h => exact hnone _ (fun c hc => (not_touching_of_isBlank hc).2.1) _ _ h
  | right h =>
    obtain ⟨_, _, _, rfl, h, -⟩ := h.of_seq
    exact hnone _ (fun c hc => (not_touching_of_isBlank hc).2.2) _ _ h

/-- In front of an end of a name something goes on. -/
theorem isSome_run_goesOn (h : IsName (w ++ x)) (hx : x ≠ []) (hfuel : (x ++ v).length ≤ fuel) :
    (goesOn.run fuel ⟨.amid u (x ++ v), captures⟩ some).isSome := by
  have haccepted : ∃ y z, goesOn.Accepts y ∧ x = y ++ z := by
    obtain ⟨-, hchars, hdots⟩ := h.spec
    obtain ⟨c, x, rfl⟩ := List.exists_cons_of_ne_nil hx
    rcases hchars c (List.mem_append_right w List.mem_cons_self) with hc | rfl
    · exact ⟨[c], x, (accepts_one (touchingBehind_of_isNameChar hc)).left, rfl⟩
    · have hfirst := hdots w x rfl
      cases x with
      | nil => cases hfirst
      | cons d x =>
        exact ⟨['.', d], x, ((accepts_one (by decide)).seq (accepts_one (touchingDot_of_isAlphanum hfirst))).right, rfl⟩
  obtain ⟨y, z, hy, rfl⟩ := haccepted
  rw [List.append_assoc] at hfuel ⊢
  obtain ⟨captures', hread⟩ := hy u (z ++ v) captures
  exact hread.isSome_run ⟨trivial, trivial, trivial⟩ hfuel rfl

/-- The name is matched, and is group 1. -/
def matchOf (u s v : Text) : Match :=
  ⟨.amid u (s ++ v), .amid (u ++ s) v, [⟨1, .amid u (s ++ v), .amid (u ++ s) v⟩]⟩

/-- Whatever is matched at the start of a name between blanks is all of it. -/
theorem eq_matchOf (h : IsName s) (hv : ∀ c ∈ v.head?, Text.isBlank c) (hfuel : (s ++ v).length ≤ fuel)
    (hm : pattern.matchAt fuel (.amid u (s ++ v)) = some m) : m = matchOf u s v := by
  rw [matchAt, pattern_eq, run, run] at hm
  split_ifs at hm
  rw [run] at hm
  obtain ⟨w, r, hread, hm⟩ := Reads.of_run fuel hm
  obtain ⟨r', hbody, rfl⟩ := hread.of_group
  obtain ⟨x, rfl⟩ := hbody.prefix_of_isBlank unblanked_wholeName hv
  obtain ⟨z, captures, hz, rfl⟩ := hbody.exists_amid
  obtain rfl : x ++ v = z := List.append_cancel_left (by rw [← List.append_assoc, hz])
  have hcaptures : captures = [] := hbody.captures_eq plain_wholeName
  rw [hcaptures, run] at hm
  by_cases hx : x = []
  · rw [hx, List.append_nil, matchOf]
    rw [hx, List.nil_append, run_goesOn_eq_none hv, List.append_nil] at hm
    exact (Option.some.inj hm).symm
  · have hle : (x ++ v).length ≤ fuel := by
      rw [List.append_assoc, List.length_append] at hfuel
      exact Nat.le_trans (Nat.le_add_left _ _) hfuel
    rw [if_pos (isSome_run_goesOn h hx hle)] at hm
    cases hm

theorem matchAt_name (h : IsName s) (hu : ∀ c ∈ u.getLast?, Text.isBlank c) (hv : ∀ c ∈ v.head?, Text.isBlank c)
    (hfuel : (s ++ v).length ≤ fuel) : pattern.matchAt fuel (.amid u (s ++ v)) = some (matchOf u s v) := by
  have hsome : (pattern.matchAt fuel (.amid u (s ++ v))).isSome := by
    rw [matchAt, pattern_eq, run, run, if_pos (holds_notAfter (fun c hc => (not_touching_of_isBlank hc).1) hu _), run]
    obtain ⟨captures, hread⟩ := (accepts_wholeName h).group 1 u v []
    refine hread.isSome_run_of_steady steady_wholeName hfuel ?_
    rw [run, run_goesOn_eq_none hv]
    rfl
  obtain ⟨m, hm⟩ := Option.isSome_iff_exists.mp hsome
  rw [hm, eq_matchOf h hv hfuel hm]

/-- Within a name the look-behind does not hold. -/
theorem matchAt_eq_none_of_within (h : IsName s) (hw : w ≠ []) (hs : s = w ++ x) :
    pattern.matchAt fuel (.amid (u ++ w) t) = none := by
  obtain ⟨w, c, rfl⟩ := (List.eq_nil_or_concat' w).resolve_left hw
  have hc : touchingBefore c := touchingBefore_of_mem (h.spec.2.1 c (by simp [hs]))
  have hnot : (Anchor.notAfter [touchingBefore]).holds (.amid (u ++ (w ++ [c])) t) = false := by
    simp [Anchor.holds, Cursor.amid, Cursor.sees, hc]
  rw [matchAt, pattern_eq, run, run, if_neg (by rw [hnot]; exact Bool.false_ne_true)]

theorem group?_matchOf (u s v : Text) : (matchOf u s v).group? 1 = some s :=
  congrArg some (Match.between_amid u s v)

/-- A name between blanks is matched, and no other match has anything of it. -/
theorem found_whole (h : IsName s) (hu : ∀ c ∈ u.getLast?, Text.isBlank c) (hv : ∀ c ∈ v.head?, Text.isBlank c) :
    matchOf u s v ∈ pattern.scan (u ++ s ++ v) ∧ ∀ m ∈ pattern.scan (u ++ s ++ v),
      m.start.pos < (u ++ s).length → u.length < m.stop.pos → m = matchOf u s v := by
  have hfuel : (s ++ v).length ≤ (u ++ s ++ v).length := by
    rw [List.append_assoc, @List.length_append _ u]
    exact Nat.le_add_left _ _
  have hbefore : ∀ x y m fuel, u = x ++ y → pattern.matchAt fuel (.amid x (y ++ (s ++ v))) = some m → y ≠ [] →
      m.stop.pos ≤ u.length := by
    rintro x y m fuel rfl hm hy
    refine stop_le_of_isBlank unblanked_pattern hm hy fun c hc => hu c ?_
    rw [List.getLast?_append, hc, Option.some_or]
    rfl
  have hmatch := matchAt_name h hu hv hfuel
  rw [List.append_assoc] at hmatch ⊢
  refine ⟨mem_scan_of_matchAt hmatch fun x y m hu' hm hy => hbefore x y m _ hu' hm hy, fun m hm hstart hstop => ?_⟩
  obtain ⟨x, y, hxy, hm⟩ := exists_amid_of_mem_scan hm
  rw [start_of_matchAt hm] at hstart
  -- The match starts within or behind the name, with it, or in front of it.
  rcases List.append_eq_append_iff.mp hxy with ⟨w, rfl, hw⟩ | ⟨w, rfl, rfl⟩
  · by_cases hne : w = []
    · rw [hne, List.append_nil, show y = s ++ v by rw [hw, hne, List.nil_append]] at hm
      exact Option.some.inj (hm.symm.trans hmatch)
    · have hle : w.length ≤ s.length := by
        simp only [Cursor.amid, List.length_append] at hstart
        omega
      obtain ⟨z, rfl⟩ := List.prefix_of_prefix_length_le ⟨y, hw.symm⟩ (List.prefix_append s v) hle
      rw [matchAt_eq_none_of_within h hne rfl] at hm
      cases hm
  · by_cases hne : w = []
    · simp only [hne, List.append_nil, List.nil_append] at hm hmatch ⊢
      rw [hm] at hmatch
      exact Option.some.inj hmatch
    · exact absurd (hbefore x w m _ rfl hm hne) (Nat.not_le.mpr hstop)

end Match
end DraftLint.Address.Host
