import DraftLint.Proofs.Outcome
import DraftLint.Proofs.Pattern.Occurrence
import DraftLint.Proofs.Plain.Joining
import DraftLint.Proofs.Plain.Preparation
import DraftLint.Proofs.Text.PrefixFree
import DraftLint.Proofs.Text.Squeeze
import DraftLint.Rules.Wording

/-!
# Combinations of keywords

Combinations without a meaning are looked for in plain text as it is written: both words on one line, with a single
space between.  In markup they are looked for in the running text, whose blanks have been squeezed.  So what plain text
is found to have is there when it is squeezed too, but a combination that is broken at the end of a line, or written
with two spaces, is passed over.
-/

namespace DraftLint

namespace RequirementLevel

open Pattern

/-- The combinations that have no meaning. -/
def combinations : List Text :=
  ["MUST not", "SHALL not", "SHOULD not", "not RECOMMENDED", "MAY NOT", "NOT REQUIRED", "NOT OPTIONAL"].map
    String.toList

theorem rows_badCombination : badCombination.rows = combinations.map (·.map CharSet.only) :=
  rfl

theorem bounded_badCombination : badCombination.Bounded :=
  ⟨bounded_literal _, bounded_literal _, bounded_literal _, bounded_literal _, bounded_literal _, bounded_literal _,
    bounded_literal _⟩

variable {c d t u v w x y : Text} {m : Match} {fuel : Nat}

/-- The combination is read that comes next. -/
theorem text_matchAt_badCombination (u v : Text) (fuel : Nat) :
    (badCombination.matchAt fuel (.amid u v)).map Match.text = combinations.find? (· <+: v) := by
  rw [text_matchAt bounded_badCombination, rows_badCombination, List.find?_map, Option.map_map]
  have hsees : ∀ c ∈ combinations, ((Cursor.sees · v) ∘ List.map CharSet.only) c = decide (c <+: v) := fun c _ => by
    rw [Function.comp_apply, Bool.eq_iff_iff, sees_only, decide_eq_true_iff]
  rw [List.find?_congr hsees]
  cases hfind : combinations.find? fun c => decide (c <+: v) with
  | none => rfl
  | some c =>
    have hbegins := List.find?_some hfind
    rw [decide_eq_true_iff] at hbegins
    rw [Option.map_some, Function.comp_apply, List.length_map, ← List.prefix_iff_eq_take.mp hbegins]

/-- The combination stands in the text, and none begins in front of it and reaches into it. -/
def StandsFree (c t : Text) : Prop :=
  c ∈ combinations ∧ ∃ u v, t = u ++ (c ++ v) ∧
    ∀ x y, u = x ++ y → y ≠ [] → ∀ d ∈ combinations, d <+: y ++ (c ++ v) → d.length ≤ y.length

/-- The end of the one text agrees with the beginning of the other. -/
def ReachesInto (c d : Text) : Prop :=
  ∃ j < c.length, 0 < j ∧ (c.drop j <+: d ∨ d <+: c.drop j)

instance (c d : Text) : Decidable (ReachesInto c d) :=
  inferInstanceAs (Decidable (∃ j < c.length, 0 < j ∧ (c.drop j <+: d ∨ d <+: c.drop j)))

/-- No combination is the beginning of another one. -/
theorem prefixFree_combinations : Text.PrefixFree combinations := by
  decide +kernel

/-- Into a combination that reaches into another one, none reaches. -/
theorem not_reachesInto : ∀ c ∈ combinations, ∀ d ∈ combinations, ReachesInto c d →
    ∀ e ∈ combinations, ¬ReachesInto e c := by
  decide +kernel

theorem reachesInto_of_begins (hc : c <+: y ++ w) (hd : d <+: w) (hy : y ≠ []) (hlt : y.length < c.length) :
    ReachesInto c d := by
  have hyc : y <+: c := List.prefix_of_prefix_length_le (List.prefix_append y w) hc (Nat.le_of_lt hlt)
  obtain ⟨z, rfl⟩ := hyc
  refine ⟨y.length, hlt, List.length_pos_of_ne_nil hy, ?_⟩
  rw [List.drop_left]
  exact List.prefix_or_prefix_of_prefix ((List.prefix_append_right_inj y).mp hc) hd

/-- Where a combination stands, it is read. -/
theorem exists_matchAt (hc : c ∈ combinations) (h : c <+: v) (u : Text) (fuel : Nat) :
    ∃ m, badCombination.matchAt fuel (.amid u v) = some m ∧ m.text = c := by
  have hsome : (combinations.find? (· <+: v)).isSome := by
    rw [List.find?_isSome]
    exact ⟨c, hc, decide_eq_true h⟩
  obtain ⟨d, hd⟩ := Option.isSome_iff_exists.mp hsome
  have hbegins := List.find?_some hd
  rw [decide_eq_true_iff] at hbegins
  have hmem := List.mem_of_find?_eq_some hd
  have hsame : d = c := prefixFree_combinations.eq_of_begins hmem hc hbegins h
  have hmatch := text_matchAt_badCombination u v fuel
  rw [hd, hsame] at hmatch
  exact Option.map_eq_some_iff.mp hmatch

theorem mem_combinations_of_matchAt (h : badCombination.matchAt fuel (.amid u v) = some m) :
    m.text ∈ combinations ∧ m.text <+: v := by
  have hmatch := text_matchAt_badCombination u v fuel
  rw [h, Option.map_some] at hmatch
  exact ⟨List.mem_of_find?_eq_some hmatch.symm, (text_prefix_of_matchAt h).1⟩

/-- A combination that stands free is found. -/
theorem StandsFree.mem (h : StandsFree c t) : c ∈ badCombinations t := by
  obtain ⟨hc, u, v, rfl, hfree⟩ := h
  obtain ⟨m, hm, rfl⟩ := exists_matchAt hc (List.prefix_append c v) u (u ++ (c ++ v)).length
  refine List.mem_map_of_mem (mem_scan_of_matchAt hm fun x y m' hxy hm' hy => ?_)
  obtain ⟨hmem, hbegins⟩ := mem_combinations_of_matchAt hm'
  have hle := hfree x y hxy hy m'.text hmem hbegins
  rw [(text_prefix_of_matchAt hm').2, hxy, List.length_append]
  exact Nat.add_le_add_left hle _

/-- The combinations that are found are those that stand free. -/
theorem mem_badCombinations_iff : c ∈ badCombinations t ↔ StandsFree c t := by
  refine ⟨fun h => ?_, StandsFree.mem⟩
  obtain ⟨m, hm, rfl⟩ := List.mem_map.mp h
  obtain ⟨u, v, rfl, hmatch⟩ := exists_amid_of_mem_scan hm
  obtain ⟨hc, rest, rfl⟩ := mem_combinations_of_matchAt hmatch
  refine ⟨hc, u, rest, rfl, fun x y hxy hy d hd hbegins => ?_⟩
  by_contra hlong
  -- The combination that reaches into this one stands free itself, so that it is found as well.
  have hreach := reachesInto_of_begins hbegins (List.prefix_append m.text rest) hy (Nat.lt_of_not_le hlong)
  rw [hxy, List.append_assoc] at hm
  obtain ⟨m', hm', rfl⟩ := exists_matchAt hd hbegins x (x ++ (y ++ (m.text ++ rest))).length
  have hfound : m' ∈ badCombination.scan (x ++ (y ++ (m.text ++ rest))) := by
    refine mem_scan_of_matchAt hm' fun x' y' m'' hx hm'' hy' => ?_
    obtain ⟨hmem, hbegins''⟩ := mem_combinations_of_matchAt hm''
    rw [(text_prefix_of_matchAt hm'').2, hx, List.length_append]
    refine Nat.add_le_add_left (Nat.le_of_not_lt fun hlt => ?_) _
    exact not_reachesInto _ hd _ hc hreach _ hmem (reachesInto_of_begins hbegins'' hbegins hy' hlt)
  have hstart : m'.start.pos = x.length := congrArg Cursor.pos (start_of_matchAt hm')
  have hstart' : m.start.pos = u.length := congrArg Cursor.pos (start_of_matchAt hmatch)
  have hpos := List.length_pos_of_ne_nil hy
  rw [hxy, List.length_append] at hstart'
  have hle := stop_le_of_mem_scan hfound hm (by omega)
  rw [(text_prefix_of_matchAt hm').2] at hle
  omega

theorem badCombinations_eq_nil_iff : badCombinations t = [] ↔ badCombination.occursIn t = false := by
  rw [badCombinations, List.map_eq_nil_iff, scan_eq_nil_iff]

theorem occursIn_badCombination_iff : badCombination.occursIn t ↔ ∃ c ∈ combinations, c <:+: t := by
  rw [occursIn_iff_exists_row bounded_badCombination, rows_badCombination]
  constructor
  · rintro ⟨u, v, rfl, row, hrow, hsees⟩
    obtain ⟨c, hc, rfl⟩ := List.mem_map.mp hrow
    obtain ⟨rest, rfl⟩ := sees_only.mp hsees
    exact ⟨c, hc, u, rest, List.append_assoc ..⟩
  · rintro ⟨c, hc, u, v, rfl⟩
    exact ⟨u, c ++ v, List.append_assoc .., _, List.mem_map_of_mem hc, sees_only.mpr (List.prefix_append c v)⟩

/-- A combination is two words with a space between. -/
theorem exists_words_of_mem (hc : c ∈ combinations) :
    ∃ s r, c = s ++ ' ' :: r ∧ s ≠ [] ∧ r ≠ [] ∧ ∀ x ∈ s ++ r, Text.isBlank x = false := by
  have hall : ∀ c ∈ combinations, c = (Text.cut ' ' c).1 ++ ' ' :: (Text.cut ' ' c).2 ∧ (Text.cut ' ' c).1 ≠ [] ∧
      (Text.cut ' ' c).2 ≠ [] ∧ ∀ x ∈ (Text.cut ' ' c).1 ++ (Text.cut ' ' c).2, Text.isBlank x = false := by
    decide +kernel
  exact ⟨_, _, hall c hc⟩

/-- What is found in a text as it is written is there when it is squeezed too. -/
theorem occursIn_squeeze (h : badCombination.occursIn t) : badCombination.occursIn (Text.squeeze t) := by
  obtain ⟨c, hc, u, v, rfl⟩ := occursIn_badCombination_iff.mp h
  obtain ⟨s, r, rfl, hs, hr, hblank⟩ := exists_words_of_mem hc
  have hwithin := Text.infix_squeeze (u := u) (v := v) hs hr hblank
  refine occursIn_badCombination_iff.mpr ⟨_, hc, ?_⟩
  rwa [List.append_assoc, List.append_assoc, List.cons_append]

theorem badCombinations_of_blank (h : ∀ x ∈ t, Text.isBlank x) : badCombinations t = [] := by
  rw [badCombinations_eq_nil_iff, Bool.eq_false_iff]
  intro hoccurs
  obtain ⟨c, hc, hwithin⟩ := occursIn_badCombination_iff.mp hoccurs
  obtain ⟨s, r, rfl, hs, -, hblank⟩ := exists_words_of_mem hc
  obtain ⟨x, hx⟩ := List.exists_mem_of_ne_nil s hs
  have hword := hblank x (List.mem_append_left r hx)
  rw [h x (hwithin.subset (List.mem_append_left _ hx))] at hword
  cases hword

/-- Lines are searched as the text that they make up. -/
theorem badCombinations_join (ls : List Text) : badCombinations (Text.join ['\n'] ls) = ls.flatMap badCombinations := by
  induction ls with
  | nil => rfl
  | cons l ls ih =>
    cases ls with
    | nil => rw [Text.join, List.intercalate_singleton, List.flatMap_singleton]
    | cons l' ls =>
      have hjoin : Text.join ['\n'] (l :: l' :: ls) = l ++ '\n' :: Text.join ['\n'] (l' :: ls) := by
        rw [Text.join, List.intercalate_cons_cons, List.append_assoc, List.singleton_append]
        rfl
      rw [hjoin, List.flatMap_cons, ← ih]
      exact map_text_scan_append_cons bounded_badCombination (by decide) (by decide) l _

end RequirementLevel

namespace Plain

open RequirementLevel

theorem Words.combinations_ofLines (lines : List (Nat × Text)) :
    (Words.ofLines lines).combinations.map (·.1) =
      lines.flatMap fun l => if Text.isVisible l.2 then badCombinations l.2 else [] := by
  induction lines with
  | nil => rfl
  | cons l lines ih =>
    rw [List.flatMap_cons, ← ih]
    obtain ⟨num, line⟩ := l
    change ((Words.ofLine num line).combinations ++ _).map (·.1) = _
    rw [List.map_append, Words.ofLine]
    split_ifs
    · simp [Items.words, Items.addWords, Items.empty, badCombinations, Function.comp_def]
    · rfl

namespace Document

variable {t : Text}

/-- Without form feeds, the combinations on the lines are those of the body as it is written. -/
theorem combinations_ofText (fileName : Option Text) (h : '\x0c' ∉ t) :
    (ofText fileName t).scan.items.combinations.map (·.1) = badCombinations (ofText fileName t).body := by
  have hwords := congrArg (fun w => w.combinations.map (·.1)) (words_ofText fileName t)
  have hline : ∀ line ∈ Text.lines (prepare t),
      (if Text.isVisible line then badCombinations line else []) = badCombinations line := by
    intro line hline
    have hfeed : line.any (· == '\x0c') = false := by
      rw [List.any_eq_false]
      intro c hc heq
      obtain rfl := beq_iff_eq.mp heq
      exact not_mem_prepare (by decide) (by decide) h (Text.subset_of_mem_splitOn hline hc)
    split_ifs with hvisible
    · rfl
    · rw [Text.isVisible, hfeed, Bool.not_false, Bool.true_and, Bool.not_eq_true', Bool.not_eq_false,
        List.isEmpty_iff] at hvisible
      obtain ⟨bs, bs', hbs, hbs', htrim⟩ := Text.exists_blanks_around line
      rw [hvisible, List.nil_append] at htrim
      rw [badCombinations_of_blank (htrim ▸ List.forall_mem_append.mpr ⟨hbs, hbs'⟩)]
  calc (ofText fileName t).scan.items.combinations.map (·.1)
      = (Words.ofLines (ofText fileName t).lines).combinations.map (·.1) := hwords
    _ = (Text.numberFrom 1 (Text.lines (prepare t))).flatMap fun l =>
          if Text.isVisible l.2 then badCombinations l.2 else [] := Words.combinations_ofLines _
    _ = (Text.lines (prepare t)).flatMap fun line => if Text.isVisible line then badCombinations line else [] :=
          Text.flatMap_numberFrom (fun line => if Text.isVisible line then badCombinations line else []) 1 _
    _ = (Text.lines (prepare t)).flatMap badCombinations := List.flatMap_congr hline
    _ = badCombinations (Text.join ['\n'] (Text.lines (prepare t))) := (badCombinations_join _).symm
    _ = badCombinations (prepare t) := by rw [Text.lines, Text.join_splitOn]

end Document
end Plain

namespace Rules

open Finding Issue

/-- The rule tells of combinations once if there are any. -/
theorem Requirements.findings_combinations (r : Requirements) :
    r.findings.filter (·.issue.code == "BAD_KEYWORD_COMBINATION") =
      if r.combinations.isEmpty then [] else [⟨badCombinations r.combinations, r.places⟩] := by
  have hmaybe : ∀ (p : Prop) [Decidable p] (i : Issue), i.code ≠ "BAD_KEYWORD_COMBINATION" →
      (if p then [anywhere i] else []).filter (·.issue.code == "BAD_KEYWORD_COMBINATION") = [] := by
    intro p _ i hi
    split_ifs
    · simpa [anywhere] using hi
    · rfl
  have hcites : (if r.citesRfc2119 then requirementsWithoutParagraph else requirementsUnexplained).code ≠
      "BAD_KEYWORD_COMBINATION" := by
    split_ifs <;> decide
  rw [findings]
  simp only [List.filter_append]
  rw [hmaybe _ _ hcites, hmaybe _ paragraphWithoutRequirements (by decide), hmaybe _ paragraphMisquoted (by decide),
    hmaybe _ (keywordsNotListed r.unlisted) (by simp [Issue.code]), List.nil_append, List.nil_append, List.nil_append,
    List.append_nil]
  split_ifs <;> rfl

/-- The nit in which combinations are named. -/
def combinationsNit (found : List Text) (places : Option (List Place)) : Nit where
  severity := .comment
  code := "BAD_KEYWORD_COMBINATION"
  message := (Issue.badCombinations found).message
  reference := some (Site.requiredAt "requirements-language")
  places := places

theorem Requirements.filter_nits_combinations (r : Requirements) :
    (r.findings.filterMap (nit? .normal)).filter (·.code == "BAD_KEYWORD_COMBINATION") =
      if r.combinations = [] then [] else [combinationsNit r.combinations r.places] := by
  have hcode : ∀ f ∈ r.findings, (nit? .normal f).filter (·.code == "BAD_KEYWORD_COMBINATION") =
      if f.issue.code == "BAD_KEYWORD_COMBINATION" then nit? .normal f else none := by
    intro f _
    obtain ⟨n, hn⟩ := exists_nit?_normal f
    rw [hn, ← (code_places_of_nit? hn).1, Option.filter_some]
  rw [List.filter_filterMap, List.filterMap_congr hcode, ← List.filterMap_filter, r.findings_combinations]
  by_cases hnone : r.combinations = []
  · rw [hnone]
    rfl
  · rw [if_neg hnone, if_neg (by simpa using hnone)]
    rfl

/-- They are reported if there are any. -/
theorem Requirements.reports_iff_ne_nil (r : Requirements) :
    (∃ n ∈ r.findings.filterMap (nit? .normal), n.code = "BAD_KEYWORD_COMBINATION") ↔ r.combinations ≠ [] := by
  have hfilter := r.filter_nits_combinations
  constructor
  · rintro ⟨n, hn, hcode⟩ hnone
    rw [if_pos hnone, List.filter_eq_nil_iff] at hfilter
    exact hfilter n hn (beq_iff_eq.mpr hcode)
  · intro hsome
    rw [if_neg hsome] at hfilter
    have hmem : combinationsNit r.combinations r.places ∈
        (r.findings.filterMap (nit? .normal)).filter (·.code == "BAD_KEYWORD_COMBINATION") := by
      rw [hfilter]
      exact List.mem_singleton_self _
    exact ⟨_, (List.mem_filter.mp hmem).1, rfl⟩

end Rules

namespace Plain.Document

open RequirementLevel Rules

variable {t : Text}

/-- The rule on keywords tells of combinations in plain text as it does in markup, where blanks have been squeezed: it
reports them if there are any in the squeezed body, and names the same ones. -/
structure TellsSqueezed (d : Document) (ns : List Nit) : Prop where
  reported_iff : (∃ n ∈ ns, n.code = "BAD_KEYWORD_COMBINATION") ↔ badCombination.occursIn (Text.squeeze d.body)
  named_iff : ∀ c, c ∈ (Requirements.ofPlain d).combinations ↔ c ∈ badCombinations (Text.squeeze d.body)

/-- What the rule tells of combinations in a text without form feeds.  It names those that stand free in the body as it
is written.  There are some in the squeezed body then, but it tells of them as it does in markup exactly if the same ones
stand free in both. -/
theorem nits_combinations_ofText (fileName : Option Text) (h : '\x0c' ∉ t) :
    ∃ ns, (requirements (.text (ofText fileName t))).nits .normal = .ok ns ∧
      ns.filter (·.code == "BAD_KEYWORD_COMBINATION") =
        (if badCombinations (ofText fileName t).body = [] then [] else
          [combinationsNit (badCombinations (ofText fileName t).body)
            (some ((ofText fileName t).scan.items.combinations.map (·.2)))]) ∧
      (∀ c, c ∈ badCombinations (ofText fileName t).body ↔ StandsFree c (ofText fileName t).body) ∧
      ((∃ n ∈ ns, n.code = "BAD_KEYWORD_COMBINATION") →
        badCombination.occursIn (Text.squeeze (ofText fileName t).body)) ∧
      (TellsSqueezed (ofText fileName t) ns ↔
        ∀ c, StandsFree c (ofText fileName t).body ↔ StandsFree c (Text.squeeze (ofText fileName t).body)) := by
  have hfound : (Requirements.ofPlain (ofText fileName t)).combinations = badCombinations (ofText fileName t).body :=
    combinations_ofText fileName h
  have hfilter := (Requirements.ofPlain (ofText fileName t)).filter_nits_combinations
  have hreported := (Requirements.ofPlain (ofText fileName t)).reports_iff_ne_nil
  have hoccurs : ∀ b : Text, badCombinations b ≠ [] ↔ badCombination.occursIn b := fun b => by
    rw [ne_eq, badCombinations_eq_nil_iff, Bool.not_eq_false]
  rw [hfound] at hfilter hreported
  refine ⟨_, rfl, hfilter, fun _ => mem_badCombinations_iff,
    fun hcode => occursIn_squeeze ((hoccurs _).mp (hreported.mp hcode)), fun htells c => ?_, fun hsame => ?_⟩
  · rw [← mem_badCombinations_iff, ← mem_badCombinations_iff, ← htells.named_iff c, hfound]
  · have hnamed : ∀ c, c ∈ badCombinations (ofText fileName t).body ↔
        c ∈ badCombinations (Text.squeeze (ofText fileName t).body) := fun c => by
      rw [mem_badCombinations_iff, mem_badCombinations_iff, hsame c]
    refine ⟨hreported.trans ?_, fun c => hfound ▸ hnamed c⟩
    rw [← hoccurs, ne_eq, ne_eq, List.eq_nil_iff_forall_not_mem, List.eq_nil_iff_forall_not_mem]
    exact not_congr (forall_congr' fun c => not_congr (hnamed c))

/-- Of two combinations the one that is broken at the end of a line is not named. -/
theorem nits_combinations_broken :
    '\x0c' ∉ "Clients MUST\nnot retry, and MAY NOT fail.".toList ∧
    ∃ ns, (requirements (.text (ofText none "Clients MUST\nnot retry, and MAY NOT fail.".toList))).nits .normal = .ok ns ∧
      ns.filter (·.code == "BAD_KEYWORD_COMBINATION") =
        [combinationsNit ["MAY NOT".toList] (some [⟨2, some 16⟩])] ∧
      badCombinations (Text.squeeze (ofText none "Clients MUST\nnot retry, and MAY NOT fail.".toList).body) =
        ["MUST not".toList, "MAY NOT".toList] := by
  have hfeed : '\x0c' ∉ "Clients MUST\nnot retry, and MAY NOT fail.".toList := by decide
  obtain ⟨ns, hns, hfilter, -⟩ := nits_combinations_ofText none hfeed
  have hfound : badCombinations (ofText none "Clients MUST\nnot retry, and MAY NOT fail.".toList).body =
      ["MAY NOT".toList] := by decide +kernel
  have hplaces : (ofText none "Clients MUST\nnot retry, and MAY NOT fail.".toList).scan.items.combinations.map (·.2) =
      [⟨2, some 16⟩] := by decide +kernel
  rw [hfound, hplaces, if_neg (List.cons_ne_nil _ _)] at hfilter
  exact ⟨hfeed, ns, hns, hfilter, by decide +kernel⟩

/-- A combination that is broken at the end of a line is not told of. -/
theorem not_tellsSqueezed :
    ¬∀ ns, (requirements (.text (ofText none "Clients MUST\nnot retry.".toList))).nits .normal = .ok ns →
      TellsSqueezed (ofText none "Clients MUST\nnot retry.".toList) ns := by
  intro h
  have hnamed := (h _ rfl).named_iff "MUST not".toList
  have hsqueezed : "MUST not".toList ∈
      badCombinations (Text.squeeze (ofText none "Clients MUST\nnot retry.".toList).body) := by decide +kernel
  have hfound : "MUST not".toList ∉
      (Requirements.ofPlain (ofText none "Clients MUST\nnot retry.".toList)).combinations := by decide +kernel
  exact hfound (hnamed.mpr hsqueezed)

end Plain.Document
end DraftLint
