import DraftLint.Markup.Document
import DraftLint.Proofs.Attempts
import DraftLint.Proofs.Markup.Spelling
import DraftLint.Proofs.Pattern.Scanning
import DraftLint.Proofs.Text.Writing

/-!
# Entries by the numbers of RFCs

An entry spells the number of an RFC in its anchor, in series information, or in the name of an included file.  The
first two are understood whatever the number is.  In the name of a file exactly four digits are looked for, so a
number with more of them is passed over, and the first name of that form counts.
-/

namespace DraftLint

namespace Text

theorem isDecimal_zeros (k n : Nat) : ∀ c ∈ List.replicate k '0' ++ ofNat n, isDecimal c := by
  refine List.forall_mem_append.mpr ⟨fun c hc => ?_, isDecimal_ofNat n⟩
  rw [List.eq_of_mem_replicate hc]
  decide

/-- The text writes the number in plain digits, perhaps with zeros in front, and is not too long to be read. -/
structure Writes (n : Nat) (t : Text) : Prop where
  eq : ∃ k, t = List.replicate k '0' ++ ofNat n
  length_le : t.length ≤ maxNumeralDigits

namespace Writes

variable {n : Nat} {t : Text}

theorem isNumeral (h : Writes n t) : t.IsNumeral := by
  obtain ⟨⟨k, rfl⟩, hlength⟩ := h
  exact ⟨List.append_ne_nil_of_right_ne_nil _ (ofNat_ne_nil n), isDecimal_zeros k n, hlength⟩

theorem ofDigits_zeros (k : Nat) (ds : List Nat) : ofDigits (List.replicate k 0 ++ ds) = ofDigits ds := by
  induction k with
  | zero => rfl
  | succ k ih => exact ih

/-- Zeros in front do not count. -/
theorem integer?_eq (h : Writes n t) : integer? t = some (n : Int) := by
  have hnumeral := h.isNumeral
  rw [integer?_of_isDecimal hnumeral.isDecimal, natural?_of_isDecimal hnumeral.ne_nil hnumeral.isDecimal,
    if_pos hnumeral.length_le]
  obtain ⟨⟨k, rfl⟩, -⟩ := h
  rw [List.filterMap_append, List.filterMap_replicate_of_some (show digitValue? '0' = some 0 by decide),
    ofDigits_zeros, ofDigits_ofNat]
  rfl

theorem ofNumeral (h : Writes n t) : Registry.ofNumeral t = .ok (Registry.ofRfc n) := by
  rw [Registry.ofNumeral, h.integer?_eq]

end Writes

theorem lt_pow_length_ofNat (n : Nat) : n < 10 ^ (ofNat n).length := by
  have hlt := foldl_digits_lt (fun d (hd : d ∈ (ofNat n).filterMap digitValue?) => lt_of_mem_digits hd) 0
  rw [length_digits (isDecimal_ofNat n), Nat.zero_add, Nat.one_mul] at hlt
  calc n = ofDigits ((ofNat n).filterMap digitValue?) := (ofDigits_ofNat n).symm
    _ < 10 ^ (ofNat n).length := hlt

theorem lt_length_padded {width n : Nat} (h : 10 ^ width ≤ n) : width < (padded width n).length := by
  have hlt : 10 ^ width < 10 ^ (ofNat n).length := Nat.lt_of_le_of_lt h (lt_pow_length_ofNat n)
  rw [padded, List.length_append]
  exact Nat.lt_of_lt_of_le ((Nat.pow_lt_pow_iff_right (by decide)).mp hlt) (Nat.le_add_left _ _)

theorem writes_padded {width n : Nat} (hwidth : width ≤ maxNumeralDigits)
    (h : (ofNat n).length ≤ maxNumeralDigits) : Writes n (padded width n) := by
  refine ⟨⟨_, rfl⟩, ?_⟩
  rw [padded, List.length_append, List.length_replicate]
  omega

end Text

theorem Registry.ofNumeral_eq_ofRfc_iff {n : Nat} {digits : Text} :
    ofNumeral digits = .ok (ofRfc n) ↔ Text.integer? digits = some (n : Int) := by
  rw [ofNumeral]
  cases Text.integer? digits with
  | none => exact iff_of_false (fun h => by cases h) (fun h => by cases h)
  | some m =>
    rw [Except.ok.injEq, Option.some.injEq]
    exact ⟨fun h => Text.ofInt_injective (List.append_cancel_left h), fun h => h ▸ rfl⟩

namespace Pattern

theorem row_times (s : CharSet) : (n : Nat) → Row (List.replicate n s) (times n (one s))
  | 0 => .nil
  | 1 => .single s
  | n + 2 => (row_times s (n + 1)).cons s

theorem sees_replicate {s : CharSet} {n : Nat} {t : Text} (ht : ∀ c ∈ t, s c) (h : n ≤ t.length) :
    Cursor.sees (List.replicate n s) t := by
  induction n generalizing t with
  | zero => rfl
  | succ n ih =>
    cases t with
    | nil => cases h
    | cons c t =>
      obtain ⟨hc, ht⟩ := List.forall_mem_cons.mp ht
      rw [List.replicate_succ, Cursor.sees, hc, ih ht (Nat.le_of_succ_le_succ h), Bool.and_self]

end Pattern

namespace Markup

open Pattern

section Files

/-- What the name of the file of an RFC begins with. -/
def rfcLead : Text := fileLead ++ "RFC.".toList

/-- The characters of the name of the file of an RFC. -/
def fileSets : List CharSet :=
  rfcLead.map .only ++ (List.replicate 4 .decimal ++ ".xml".toList.map .only)

/-- The digits in the first name of the file of an RFC. -/
def firstFile? : Text → Option Text
  | [] => none
  | c :: t => if Cursor.sees fileSets (c :: t) then some (((c :: t).drop 14).take 4) else firstFile? t

variable {fuel : Nat} {u v p w : Text}

theorem matchAt_rfcFile (fuel : Nat) (u v : Text) : (rfcFile.matchAt fuel (.amid u v)).map (·.group? 1) =
    if Cursor.sees fileSets v then some (some ((v.drop 14).take 4)) else none := by
  have hfile : rfcFile = .seq (literal rfcLead) (.seq (.group 1 (times 4 (one .decimal))) (literal ".xml".toList)) :=
    rfl
  have hlead : (rfcLead.map CharSet.only).length = 14 := rfl
  rw [fileSets, sees_append, sees_append, hfile, matchAt, run, run_row (row_literal _)]
  simp only [run, run_row (row_times _ _), run_row (row_literal _), Bool.and_eq_true, hlead, List.length_replicate]
  by_cases hsees : Cursor.sees (rfcLead.map .only) v = true
  · by_cases hdigits : Cursor.sees (List.replicate 4 .decimal) (v.drop 14) = true
    · by_cases hend : Cursor.sees (".xml".toList.map .only) ((v.drop 14).drop 4) = true
      · rw [if_pos hsees, if_pos hdigits, if_pos hend, if_pos ⟨hsees, hdigits, hend⟩, Option.map_some, Match.group?,
          List.find?_cons_of_pos rfl, Option.map_some]
        have hbetween := Match.between_amid (u ++ v.take 14) ((v.drop 14).take 4) ((v.drop 14).drop 4)
        rw [List.take_append_drop] at hbetween
        exact congrArg (fun t => some (some t)) hbetween
      · rw [if_pos hsees, if_pos hdigits, if_neg hend, if_neg fun h => hend h.2.2]
        rfl
    · rw [if_pos hsees, if_neg hdigits, if_neg fun h => hdigits h.2.1]
      rfl
  · rw [if_neg hsees, if_neg fun h => hsees h.1]
    rfl

theorem bind_searchFrom_rfcFile :
    (rfcFile.searchFrom fuel u.reverse v u.length).bind (·.group? 1) = firstFile? v := by
  induction v generalizing u with
  | nil =>
    have hnone := matchAt_rfcFile fuel u []
    rw [show Cursor.sees fileSets [] = false from rfl, if_neg Bool.false_ne_true, Option.map_eq_none_iff] at hnone
    exact congrArg (Option.bind · (·.group? 1)) hnone
  | cons c v ih =>
    have hhere := matchAt_rfcFile fuel u (c :: v)
    have hrest := ih (u := u ++ [c])
    rw [List.reverse_append, List.length_append] at hrest
    rw [searchFrom, firstFile?]
    by_cases hsees : Cursor.sees fileSets (c :: v) = true
    · rw [if_pos hsees, Option.map_eq_some_iff] at hhere
      obtain ⟨m, hm, hgroup⟩ := hhere
      rw [if_pos hsees, ← hgroup, show rfcFile.matchAt fuel ⟨u.reverse, c :: v, u.length⟩ = some m from hm]
      rfl
    · rw [if_neg hsees, Option.map_eq_none_iff] at hhere
      rw [if_neg hsees, show rfcFile.matchAt fuel ⟨u.reverse, c :: v, u.length⟩ = none from hhere]
      exact hrest

theorem group_rfcFile (t : Text) : (rfcFile.search? t).bind (·.group? 1) = firstFile? t :=
  bind_searchFrom_rfcFile (u := [])

/-- Where the name of a file begins, no other reaches into it. -/
theorem apart_fileSets : ∀ k < 22, 0 < k → Cursor.sees ((fileSets.drop k).take 3) "ref".toList = false := by
  decide

theorem sees_across {z : Text} (hz : z ≠ []) :
    Cursor.sees fileSets (z ++ (rfcLead ++ w)) = Cursor.sees fileSets z := by
  by_cases hlength : fileSets.length ≤ z.length
  · exact Cursor.sees_append_right hlength _
  · have hlength : z.length < 22 := Nat.lt_of_not_le hlength
    have hfalse : Cursor.sees fileSets z = false := by
      rw [Bool.eq_false_iff]
      intro hsees
      have hle := length_le_of_sees hsees
      exact absurd hle (Nat.not_le_of_lt hlength)
    have hsplit : fileSets = fileSets.take z.length ++
        ((fileSets.drop z.length).take 3 ++ (fileSets.drop z.length).drop 3) := by
      rw [List.take_append_drop, List.take_append_drop]
    have htake : (fileSets.take z.length).length = z.length :=
      List.length_take_of_le (Nat.le_of_lt hlength)
    have hinside : Cursor.sees ((fileSets.drop z.length).take 3) (rfcLead ++ w) = false := by
      have hword : rfcLead ++ w = "ref".toList ++ ("erence.RFC.".toList ++ w) := rfl
      have hapart := apart_fileSets z.length hlength (List.length_pos_of_ne_nil hz)
      rw [hword, Cursor.sees_append_right (show _ ≤ "ref".toList.length from List.length_take_le 3 _)]
      exact hapart
    rw [hfalse, hsplit, sees_append, sees_append, htake, List.drop_left, hinside, Bool.false_and, Bool.and_false]

/-- The first name of a file counts, and one begins only after the one before. -/
theorem firstFile?_append (p w : Text) :
    firstFile? (p ++ (rfcLead ++ w)) = (firstFile? p).or (firstFile? (rfcLead ++ w)) := by
  induction p with
  | nil => rfl
  | cons c p ih =>
    have hacross : Cursor.sees fileSets (c :: (p ++ (rfcLead ++ w))) = Cursor.sees fileSets (c :: p) :=
      sees_across (List.cons_ne_nil c p)
    rw [List.cons_append, firstFile?, firstFile?, hacross, ih]
    split_ifs with hsees
    · have hlength : 22 ≤ (c :: p).length := length_le_of_sees hsees
      rw [← List.cons_append, List.drop_append_of_le_length (by omega),
        List.take_append_of_le_length (by rw [List.length_drop]; omega)]
      rfl
    · rfl

/-- The name of the file of an RFC by its number. -/
def rfcFileName (n : Nat) : Text :=
  rfcLead ++ (Text.padded 4 n ++ ".xml".toList)

/-- Only four digits make the name of the file of an RFC. -/
theorem sees_fileSets {x : Text} (hx : ∀ c ∈ x, CharSet.decimal c) (hlength : 4 ≤ x.length) :
    Cursor.sees fileSets (rfcLead ++ (x ++ ".xml".toList)) ↔ x.length = 4 := by
  have hlead : Cursor.sees (rfcLead.map .only) (rfcLead ++ (x ++ ".xml".toList)) = true :=
    sees_only.mpr (List.prefix_append ..)
  have hdrop : (rfcLead ++ (x ++ ".xml".toList)).drop (rfcLead.map CharSet.only).length = x ++ ".xml".toList :=
    rfl
  have hdigits : Cursor.sees (List.replicate 4 .decimal) (x ++ ".xml".toList) = true := by
    rw [Cursor.sees_append_right (by rwa [List.length_replicate])]
    exact sees_replicate hx hlength
  rw [fileSets, sees_append, sees_append, hlead, hdrop, hdigits, Bool.true_and, Bool.true_and, List.length_replicate,
    List.drop_append_of_le_length hlength, sees_only]
  constructor
  · intro hend
    by_contra hmore
    obtain ⟨c, rest, hrest⟩ := List.exists_cons_of_ne_nil (l := x.drop 4) (by
      rw [ne_eq, List.drop_eq_nil_iff]
      omega)
    rw [hrest] at hend
    have hc := hx c (List.mem_of_mem_drop (hrest ▸ List.mem_cons_self))
    rw [← (List.cons_prefix_cons.mp hend).1] at hc
    exact absurd hc (by decide)
  · intro hfour
    rw [List.drop_of_length_le (Nat.le_of_eq hfour)]
    exact List.prefix_rfl

theorem firstFile?_rfcFileName (n : Nat) :
    firstFile? (rfcFileName n) = if n < 10000 then some (Text.padded 4 n) else none := by
  have hdecimal : ∀ c ∈ Text.padded 4 n, CharSet.decimal c := Text.isDecimal_zeros _ n
  have hlength : 4 ≤ (Text.padded 4 n).length ∧ ((Text.padded 4 n).length = 4 ↔ n < 10000) := by
    by_cases hn : n < 10000
    · have hfour : (Text.padded 4 n).length = 4 := Text.length_padded hn (by decide)
      exact ⟨hfour.ge, iff_of_true hfour hn⟩
    · have hmore : 4 < (Text.padded 4 n).length := Text.lt_length_padded (Nat.le_of_not_lt hn)
      exact ⟨hmore.le, iff_of_false hmore.ne' hn⟩
  have hhere : Cursor.sees fileSets ('r' :: ("eference.RFC.".toList ++ (Text.padded 4 n ++ ".xml".toList))) ↔
      (Text.padded 4 n).length = 4 :=
    sees_fileSets hdecimal hlength.1
  have hname : rfcFileName n = 'r' :: ("eference.RFC.".toList ++ (Text.padded 4 n ++ ".xml".toList)) := rfl
  rw [hname, firstFile?]
  by_cases hn : n < 10000
  · rw [if_pos (hhere.mpr (hlength.2.mpr hn)), if_pos hn]
    have hdrop : ('r' :: ("eference.RFC.".toList ++ (Text.padded 4 n ++ ".xml".toList))).drop 14 =
        Text.padded 4 n ++ ".xml".toList :=
      rfl
    rw [hdrop, List.take_left' (hlength.2.mpr hn)]
  · have hlead : ¬fileLead <:+: "eference.RFC.".toList := fun h =>
      absurd (h.sublist.count_le 'r') (by decide)
    have hrest : 'R' ∉ Text.padded 4 n ++ ".xml".toList := by
      rw [List.mem_append, not_or]
      exact ⟨fun hR => Text.ne_of_isDecimal (hdecimal _ hR) (by decide) rfl, by decide⟩
    have hnone := search?_rfcFile hlead hrest
    rw [if_neg fun hsees => hn (hlength.2.mp (hhere.mp hsees)), if_neg hn, ← group_rfcFile, hnone, Option.bind_none]

end Files

section Anchor

variable {fuel : Nat} {u letters gap digits : Text} {c : Cursor}

/-- The letters of a word in any case. -/
def InAnyCase (word letters : Text) : Prop :=
  List.Forall₂ (fun c d => c = d ∨ c = d.toLower) letters word

theorem rfcAnchor_eq : rfcAnchor = .seq (.anchor .textStart) (.seq (literal "RFC".toList).ignoreCase
    (.seq (.maybe (.one (CharSet.only ' ').ignoreCase))
      (.seq (.group 1 (.atLeastOnce (.one CharSet.decimal.ignoreCase))) (.anchor .lineEnd)))) :=
  rfl

theorem sees_of_inAnyCase (h : InAnyCase "RFC".toList letters) (t : Text) :
    letters.length = 3 ∧
      Cursor.sees ("RFC".toList.map fun c => (CharSet.only c).ignoreCase) (letters ++ t) = true := by
  obtain _ | ⟨ha, _ | ⟨hb, _ | ⟨hc, _ | _⟩⟩⟩ := h
  refine ⟨rfl, ?_⟩
  rcases ha with rfl | rfl <;> rcases hb with rfl | rfl <;> rcases hc with rfl | rfl <;> rfl

theorem run_digits (hne : digits ≠ []) (hdigits : ∀ c ∈ digits, Text.isDecimal c) (hfuel : digits.length ≤ fuel) :
    (Pattern.seq (.group 1 (.atLeastOnce (.one CharSet.decimal.ignoreCase))) (.anchor .lineEnd)).run fuel
        ⟨.amid u digits, []⟩ (fun r => some (Match.mk c r.cursor r.captures)) =
      some ⟨c, .amid (u ++ digits) [], [⟨1, .amid u digits, .amid (u ++ digits) []⟩]⟩ := by
  obtain ⟨d, ds, rfl⟩ := List.exists_cons_of_ne_nil hne
  have hset : ∀ x ∈ d :: ds, CharSet.decimal.ignoreCase x := fun x hx =>
    Text.ignoreCase_of_mem (s := CharSet.decimal) (hdigits x hx)
  obtain ⟨hd, hds⟩ := List.forall_mem_cons.mp hset
  rw [run, run, atLeastOnce, run, run_one_cons hd]
  have hmany : (Pattern.many (.one CharSet.decimal.ignoreCase)).run fuel ⟨.amid (u ++ [d]) (ds ++ []), []⟩
      (fun r => (Pattern.anchor .lineEnd).run fuel
        { r with captures := ⟨1, .amid u (d :: ds), r.cursor⟩ :: r.captures }
        fun r => some (Match.mk c r.cursor r.captures)) =
      some ⟨c, .amid (u ++ [d] ++ ds) [], [⟨1, .amid u (d :: ds), .amid (u ++ [d] ++ ds) []⟩]⟩ :=
    run_many_one_all hds (by simp) rfl (Nat.le_of_succ_le hfuel)
  rw [List.append_nil, List.append_assoc] at hmany
  exact hmany

theorem group_rfcAnchor (hletters : InAnyCase "RFC".toList letters) (hgap : gap = [] ∨ gap = [' ']) (hne : digits ≠ [])
    (hdigits : ∀ c ∈ digits, Text.isDecimal c) :
    (rfcAnchor.match? (letters ++ (gap ++ digits))).bind (·.group? 1) = some digits := by
  obtain ⟨hlength, hsees⟩ := sees_of_inAnyCase hletters (gap ++ digits)
  have hthree : ("RFC".toList.map fun c => (CharSet.only c).ignoreCase).length = letters.length := hlength.symm
  have hmatch : rfcAnchor.match? (letters ++ (gap ++ digits)) =
      some ⟨.amid [] (letters ++ (gap ++ digits)), .amid (letters ++ gap ++ digits) [],
        [⟨1, .amid (letters ++ gap) digits, .amid (letters ++ gap ++ digits) []⟩]⟩ := by
    have hstart : Cursor.start (letters ++ (gap ++ digits)) = .amid [] (letters ++ (gap ++ digits)) := rfl
    have hholds : Anchor.textStart.holds (.amid [] (letters ++ (gap ++ digits))) = true := rfl
    rw [match?, matchAt, rfcAnchor_eq, hstart, run, run, if_pos hholds, run, run_row (row_literal_ignoreCase _),
      if_pos hsees, hthree, List.take_left, List.drop_left, List.nil_append, run, maybe]
    rcases hgap with rfl | rfl
    · rw [run_alt_of_none]
      · rw [List.append_nil]
        exact run_digits hne hdigits (by simp)
      · refine run_one_eq_none fun x w hx hblank => ?_
        have hx' := hdigits x (by rw [← List.nil_append digits, hx]; exact List.mem_cons_self)
        rw [Text.eq_of_only_ignoreCase (by decide) hblank] at hx'
        exact absurd hx' (by decide)
    · refine run_alt_of_some ?_
      rw [List.singleton_append, run_one_cons (by decide)]
      refine run_digits hne hdigits ?_
      rw [List.length_append, List.length_cons]
      omega
  rw [hmatch, Option.bind_some, Match.group?, List.find?_cons_of_pos rfl, Option.map_some]
  have hbetween := Match.between_amid (letters ++ gap) digits []
  rw [List.append_nil] at hbetween
  exact congrArg some hbetween

end Anchor

namespace Element

variable {n : Nat} {e : Element}

/-- The entry is known by a spelling of the number of an RFC: its anchor is the word in any case and the number,
series information under another anchor gives the number, or the name of a file ends in it. -/
inductive SpellsRfc (n : Nat) (e : Element) : Prop
  | anchor {letters gap digits : Text} (hname : e.name ≠ includeName) (hletters : InAnyCase "RFC".toList letters)
      (hgap : gap = [] ∨ gap = [' ']) (hdigits : Text.Writes n digits)
      (hanchor : Text.trim (e.attributeText "anchor") = letters ++ (gap ++ digits))
  | series {before after : List Element} {info : Element} (hname : e.name ≠ includeName)
      (hanchor : rfcAnchor.leads (Text.trim (e.attributeText "anchor")) = false)
      (hinfos : e.childrenNamed "seriesInfo" = before ++ info :: after) (hbefore : ∀ i ∈ before, i.Silent)
      (hseries : (info.attribute? "name").map Text.str = some "RFC")
      (hdigits : Text.Writes n (Text.trim (info.attributeText "value")))
  | file {p : Text} (hname : e.name = includeName) (hlength : (Text.ofNat n).length ≤ Text.maxNumeralDigits)
      (hhref : e.attributeText "href" = p ++ rfcFileName n)

theorem documentLabel_of_anchor {letters gap digits : Text} (hname : e.name ≠ includeName)
    (hletters : InAnyCase "RFC".toList letters) (hgap : gap = [] ∨ gap = [' ']) (hdigits : Text.Writes n digits)
    (hanchor : Text.trim (e.attributeText "anchor") = letters ++ (gap ++ digits)) :
    e.documentLabel = .ok (Registry.ofRfc n) := by
  have hgroup := group_rfcAnchor hletters hgap hdigits.isNumeral.ne_nil hdigits.isNumeral.isDecimal
  have hinclude : (e.name == includeName) = false := beq_eq_false_iff_ne.mpr hname
  simp only [documentLabel, hinclude, hanchor, hgroup, Bool.false_eq_true, if_false]
  exact hdigits.ofNumeral

theorem documentLabel_of_series {before after : List Element} {info : Element} (hname : e.name ≠ includeName)
    (hanchor : rfcAnchor.leads (Text.trim (e.attributeText "anchor")) = false)
    (hinfos : e.childrenNamed "seriesInfo" = before ++ info :: after) (hbefore : ∀ i ∈ before, i.Silent)
    (hseries : (info.attribute? "name").map Text.str = some "RFC")
    (hdigits : Text.Writes n (Text.trim (info.attributeText "value"))) :
    e.documentLabel = .ok (Registry.ofRfc n) := by
  have hinclude : (e.name == includeName) = false := beq_eq_false_iff_ne.mpr hname
  have hnone : rfcAnchor.match? (Text.trim (e.attributeText "anchor")) = none := by
    rwa [leads, Option.isSome_eq_false_iff, Option.isNone_iff_eq_none] at hanchor
  have hnumeral := hdigits.isNumeral
  have hempty : (Text.trim (info.attributeText "value")).isEmpty = false :=
    List.isEmpty_eq_false_iff.mpr hnumeral.ne_nil
  have hall : Text.allDigits (Text.trim (info.attributeText "value")) = true := by
    rw [Text.allDigits, hempty, Bool.not_false, Bool.true_and, List.all_eq_true]
    exact fun c hc => Text.isDigitLike_of_isDecimal (hnumeral.isDecimal c hc)
  have hsays : seriesNaming? (info :: after) = some (.rfc (Text.trim (info.attributeText "value"))) := by
    simp only [seriesNaming?, hempty, hseries, hall, Bool.false_eq_true, if_false, if_true]
  rw [documentLabel_eq]
  simp only [naming, hinclude, hnone, hinfos, seriesNaming?_append hbefore, hsays, Bool.false_eq_true, if_false,
    Option.bind_none, Option.getD_some]
  exact hdigits.ofNumeral

theorem documentLabel_of_rfcFile {digits : Text} (hname : e.name = includeName)
    (hdigits : (rfcFile.search? (e.attributeText "href")).bind (·.group? 1) = some digits) :
    e.documentLabel = Registry.ofNumeral digits := by
  have hinclude : (e.name == includeName) = true := beq_iff_eq.mpr hname
  simp only [documentLabel, hinclude, includedLabel, hdigits, if_true]

/-- What the name of a file says without four digits is not the number of an RFC. -/
theorem documentLabel_ne_of_draftFile (hname : e.name = includeName)
    (hnone : (rfcFile.search? (e.attributeText "href")).bind (·.group? 1) = none) :
    e.documentLabel ≠ .ok (Registry.ofRfc n) := by
  have hinclude : (e.name == includeName) = true := beq_iff_eq.mpr hname
  rw [documentLabel_eq]
  simp only [naming, hinclude, includedNaming, hnone, if_true]
  cases hdraft : ((draftFile.search? (e.attributeText "href")).bind (·.group? 1)).bind draftLabel? with
  | none => exact fun h => absurd (Except.ok.inj h) (List.cons_ne_nil _ _).symm
  | some name =>
    intro h
    obtain rfl : name = Registry.ofRfc n := Except.ok.inj h
    obtain ⟨label, -, hlabel⟩ := Option.bind_eq_some_iff.mp hdraft
    have hstart : Text.startsWith "draft-".toList (Text.lower (Registry.ofRfc n)) = true :=
      (Option.filter_eq_some_iff.mp hlabel).2
    have hother : Text.startsWith "draft-".toList (Text.lower (Registry.ofRfc n)) = false := rfl
    rw [hother] at hstart
    cases hstart

/-- Every spelling of the number of an RFC gives its label, but the name of a file does only if its first form with
four digits is that of the number. -/
theorem documentLabel_eq_ofRfc_iff (h : e.SpellsRfc n) :
    e.documentLabel = .ok (Registry.ofRfc n) ↔
      (e.name = includeName → ∀ p, e.attributeText "href" = p ++ rfcFileName n →
        match (rfcFile.search? p).bind (·.group? 1) with
        | some digits => Text.integer? digits = some (n : Int)
        | none => n < 10000) := by
  cases h with
  | anchor hname hletters hgap hdigits hanchor =>
    exact iff_of_true (documentLabel_of_anchor hname hletters hgap hdigits hanchor) fun h => absurd h hname
  | series hname hanchor hinfos hbefore hseries hdigits =>
    exact iff_of_true (documentLabel_of_series hname hanchor hinfos hbefore hseries hdigits) fun h => absurd h hname
  | @file p hname hlength hhref =>
    have hfirst : (rfcFile.search? (e.attributeText "href")).bind (·.group? 1) =
        ((rfcFile.search? p).bind (·.group? 1)).or (if n < 10000 then some (Text.padded 4 n) else none) := by
      rw [group_rfcFile, group_rfcFile, hhref, rfcFileName, firstFile?_append, ← rfcFileName, firstFile?_rfcFileName]
    have hunique : (e.name = includeName → ∀ q, e.attributeText "href" = q ++ rfcFileName n →
        match (rfcFile.search? q).bind (·.group? 1) with
        | some digits => Text.integer? digits = some (n : Int)
        | none => n < 10000) ↔
        match (rfcFile.search? p).bind (·.group? 1) with
        | some digits => Text.integer? digits = some (n : Int)
        | none => n < 10000 := by
      refine ⟨fun h => h hname p hhref, fun h _ q hq => ?_⟩
      rwa [← List.append_cancel_right (hhref.symm.trans hq)]
    rw [hunique]
    cases hp : (rfcFile.search? p).bind (·.group? 1) with
    | some digits =>
      rw [hp, Option.some_or] at hfirst
      rw [documentLabel_of_rfcFile hname hfirst]
      exact Registry.ofNumeral_eq_ofRfc_iff
    | none =>
      rw [hp, Option.none_or] at hfirst
      split_ifs at hfirst with hn
      · have hdigits : Text.Writes n (Text.padded 4 n) := Text.writes_padded (by decide) hlength
        exact iff_of_true ((documentLabel_of_rfcFile hname hfirst).trans hdigits.ofNumeral) hn
      · exact iff_of_false (documentLabel_ne_of_draftFile hname hfirst) hn

/-- An anchor with zeros and letters of either case, and the name of a file with zeros. -/
theorem documentLabel_of_small_numbers :
    documentLabel ⟨⟨"reference".toList, 1, [("anchor".toList, "rFc 007".toList)]⟩, []⟩ = .ok "RFC 7".toList ∧
      documentLabel ⟨⟨includeName, 1, [("href".toList, "bibxml/reference.RFC.0020.xml".toList)]⟩, []⟩ =
        .ok "RFC 20".toList := by
  constructor
  · have hletters : InAnyCase "RFC".toList "rFc".toList := .cons (.inr rfl) (.cons (.inl rfl) (.cons (.inr rfl) .nil))
    have hdigits : Text.Writes 7 "007".toList := ⟨⟨2, rfl⟩, by decide⟩
    exact (documentLabel_eq_ofRfc_iff (.anchor (by decide) hletters (.inr rfl) hdigits rfl)).mpr
      fun hname => absurd hname (by decide)
  · refine (documentLabel_eq_ofRfc_iff (n := 20) (.file (p := "bibxml/".toList) rfl (by decide) rfl)).mpr ?_
    intro _ p hp
    obtain rfl : "bibxml/".toList = p := List.append_cancel_right hp
    have hnone : (rfcFile.search? "bibxml/".toList).bind (·.group? 1) = none := group_rfcFile _
    rw [hnone]
    decide

/-- A number with five digits in the name of a file. -/
theorem documentLabel_eq_nil_of_large_number :
    ∃ m, Document.ofOctets none (Utf8.encode ("<rfc xmlns:xi=\"http://www.w3.org/2001/XInclude\">" ++
        "<xi:include href=\"reference.RFC.10000.xml\"/></rfc>").toList) = .ok m ∧
      ∃ e ∈ m.root.children, e.SpellsRfc 10000 ∧ e.documentLabel = .ok [] := by
  obtain ⟨m, hm, e, he, hname, hhref, hlabel⟩ := Attempts.exists_of_decide
    (x := Document.ofOctets none (Utf8.encode ("<rfc xmlns:xi=\"http://www.w3.org/2001/XInclude\">" ++
      "<xi:include href=\"reference.RFC.10000.xml\"/></rfc>").toList))
    (p := fun m => ∃ e ∈ m.root.children, e.name = includeName ∧ e.attributeText "href" = rfcFileName 10000 ∧
      e.documentLabel = .ok []) (by decide +kernel)
  exact ⟨m, hm, e, he, .file (p := []) hname (by decide) hhref, hlabel⟩

end Element

end Markup
end DraftLint
