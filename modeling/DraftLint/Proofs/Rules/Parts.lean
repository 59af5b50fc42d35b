import DraftLint.Proofs.Plain.Content
import DraftLint.Proofs.Plain.Labels
import DraftLint.Proofs.Rules.Places
import DraftLint.Proofs.Rules.Replies

/-!
# Verdicts on parts

What the rules on the parts of plain text say follows from its lines.  A part of a document with a header and a
title is missing if no line is a heading of it, and empty if nothing can be seen from its last heading to its end.
Without a header or a title the rules say only that, and the review says it once.
-/

namespace DraftLint

/-- The rule that asks for the part. -/
def Rule.requiring? : Part → Option Rule
  | .abstract => some .abstract
  | .introduction => some .introduction
  | .security => some .security
  | .authors => some .authors
  | .iana => some .iana
  | .header | .references => none

theorem Rule.ne_of_requiring? {p : Part} {r : Rule} (h : requiring? p = some r) :
    p ≠ .header ∧ p ≠ .references := by
  constructor
  · rintro rfl
    cases h
  · rintro rfl
    cases h

namespace Plain.Document

open Issue

/-- What nits tell about a part of a document that has a header and a title. -/
structure Tells (d : Document) (p : Part) (ns : List Nit) : Prop where
  /-- The part is missing exactly if no line is a heading of it. -/
  missing_iff : (∃ n ∈ ns, n.code = (missingPart p).code) ↔ d.headings p = []
  /-- It is empty exactly if it is so from its last heading on, which is the place that is given. -/
  empty_iff : ∀ places, (∃ n ∈ ns, n.code = (emptyPart p).code ∧ n.places = places) ↔
    ∃ num, (d.headings p).getLast? = some num ∧ d.IsEmptyFrom p num ∧ places = some [⟨num, none⟩]
  /-- Nothing else is told but that there are many authors. -/
  only : ∀ n ∈ ns, n.code = (missingPart p).code ∨ n.code = (emptyPart p).code ∨
    p = .authors ∧ n.code = "TOO_MANY_AUTHORS"
  /-- No two nits tell of the part. -/
  countP_le : ns.countP (fun n => n.code != "TOO_MANY_AUTHORS") ≤ 1

section Tells

variable {d : Document} {p : Part} {n : Nit} {ns ns' : List Nit} {num : Nat}

theorem missing_ne_empty (p : Part) : (missingPart p).code ≠ (emptyPart p).code := by
  cases p <;> decide

theorem missing_ne_manyAuthors (p : Part) : (missingPart p).code ≠ "TOO_MANY_AUTHORS" := by
  cases p <;> decide

theorem empty_ne_manyAuthors (p : Part) : (emptyPart p).code ≠ "TOO_MANY_AUTHORS" := by
  cases p <;> decide

theorem tells_missing (h : d.headings p = []) (hcode : n.code = (missingPart p).code) : d.Tells p [n] := by
  have hempty : n.code ≠ (emptyPart p).code := hcode ▸ missing_ne_empty p
  refine ⟨?_, ?_, ?_, List.countP_le_length⟩
  · simp [h, hcode]
  · simp [h, hempty]
  · simp [hcode]

theorem tells_empty (hlast : (d.headings p).getLast? = some num) (h : d.IsEmptyFrom p num)
    (hcode : n.code = (emptyPart p).code) (hplaces : n.places = some [⟨num, none⟩]) : d.Tells p [n] := by
  have hheadings : d.headings p ≠ [] := List.ne_nil_of_mem (List.mem_of_getLast? hlast)
  have hmissing : n.code ≠ (missingPart p).code := hcode ▸ (missing_ne_empty p).symm
  refine ⟨?_, ?_, ?_, List.countP_le_length⟩
  · simp [hheadings, hmissing]
  · simp [hlast, hcode, hplaces, h, eq_comm]
  · simp [hcode]

theorem tells_nothing (hlast : (d.headings p).getLast? = some num) (h : ¬d.IsEmptyFrom p num) : d.Tells p [] := by
  have hheadings : d.headings p ≠ [] := List.ne_nil_of_mem (List.mem_of_getLast? hlast)
  refine ⟨?_, ?_, List.forall_mem_nil _, Nat.zero_le _⟩
  · simp [hheadings]
  · simp [hlast, h]

/-- That there are many authors tells nothing about the part. -/
theorem Tells.append (h : d.Tells p ns) (hmany : ∀ n ∈ ns', p = .authors ∧ n.code = "TOO_MANY_AUTHORS") :
    d.Tells p (ns ++ ns') := by
  have hleft : ∀ (code : String) (q : Nit → Prop), code ≠ "TOO_MANY_AUTHORS" →
      ((∃ n ∈ ns ++ ns', n.code = code ∧ q n) ↔ ∃ n ∈ ns, n.code = code ∧ q n) := by
    intro code q hcode
    constructor
    · rintro ⟨n, hn, hnit⟩
      rcases List.mem_append.mp hn with hn | hn
      · exact ⟨n, hn, hnit⟩
      · exact absurd (hnit.1.symm.trans (hmany n hn).2) hcode
    · rintro ⟨n, hn, hnit⟩
      exact ⟨n, List.mem_append_left _ hn, hnit⟩
  refine ⟨?_, ?_, ?_, ?_⟩
  · have hmissing := hleft _ (fun _ => True) (missing_ne_manyAuthors p)
    simp only [and_true] at hmissing
    exact hmissing.trans h.missing_iff
  · intro places
    exact (hleft _ (fun n => n.places = places) (empty_ne_manyAuthors p)).trans (h.empty_iff places)
  · refine List.forall_mem_append.mpr ⟨h.only, ?_⟩
    intro n hn
    exact .inr (.inr (hmany n hn))
  · have hnone : ns'.countP (fun n => n.code != "TOO_MANY_AUTHORS") = 0 := by
      rw [List.countP_eq_zero]
      intro n hn
      simp [(hmany n hn).2]
    rw [List.countP_append, hnone]
    exact h.countP_le

end Tells

end Plain.Document

namespace Rules

open Finding Issue

variable {d : Plain.Document} {p : Part}

theorem code_missing (kind : Kind) (p : Part) : (missing kind p).code = (missingPart p).code := by
  cases p with
  | iana =>
    unfold missing
    split_ifs <;> rfl
  | _ => rfl

theorem plainPart_of_not_hasHeader (h : d.hasHeader = false) : plainPart d p = [anywhere documentStructure] := by
  simp [plainPart, h]

/-- What the front page says about the number of authors is told along with their addresses. -/
def moreAbout (d : Plain.Document) (p : Part) : List Finding :=
  if p = .authors then fewAuthors d.scan.page.header.authors.length .text else []

theorem code_of_mem_moreAbout {f : Finding} (h : f ∈ moreAbout d p) :
    p = .authors ∧ f.issue.code = "TOO_MANY_AUTHORS" := by
  unfold moreAbout fewAuthors at h
  split_ifs at h with hp hcount
  · obtain rfl := List.mem_singleton.mp h
    exact ⟨hp, rfl⟩
  · cases h
  · cases h

/-- The rule that asks for a part says so without asking other sites. -/
theorem answer_verdict_requiring {r : Rule} (h : Rule.requiring? p = some r) (s : Standard) (online : Bool)
    (d : Plain.Document) (w : World) :
    (r.verdict s online (.text d)).answer w = .of (plainPart d p ++ moreAbout d p) := by
  have hexamine : r.examine s (.text d) = .of (plainPart d p ++ moreAbout d p) := by
    cases p <;> cases h
    case authors => rfl
    all_goals exact congrArg Verdict.of (List.append_nil _).symm
  have hinquire : (r.inquire (.text d)).answer w = .clean := by
    cases p <;> cases h <;> rfl
  rw [Rule.answer_verdict, hinquire, hexamine]
  cases online with
  | false => rfl
  | true => exact congrArg Verdict.of (List.append_nil _)

/-- What a document with header and title lacks is told from its lines. -/
theorem plainPart_ofText {fileName : Option Text} {t : Text} (h : (Plain.Document.ofText fileName t).hasHeader)
    (hp : p ≠ .header) (hr : p ≠ .references) :
    plainPart (.ofText fileName t) p =
      match ((Plain.Document.ofText fileName t).headings p).getLast? with
      | none => [anywhere (missing (Plain.Document.ofText fileName t).kind p)]
      | some num =>
        if (Plain.Document.ofText fileName t).IsEmptyFrom p num then [onLines (emptyPart p) [num]] else [] := by
  have hfound := Plain.Document.found_iff_ofText h hp hr
  unfold plainPart
  dsimp only
  rw [if_neg (by simp [h])]
  cases hlast : ((Plain.Document.ofText fileName t).headings p).getLast? with
  | none =>
    rw [if_pos]
    rw [Bool.not_eq_true', Bool.eq_false_iff]
    intro hf
    have hnone := (hfound _).mpr ⟨hf, rfl⟩
    rw [hlast] at hnone
    cases hnone
  | some num =>
    obtain ⟨hf, rfl⟩ := (hfound num).mp hlast
    rw [if_neg (by simp [hf])]
    exact if_congr (Plain.Document.isEmpty_content_ofText h hp hf) rfl rfl

end Rules

theorem Issue.eq_documentStructure_of_code {i : Issue} (h : i.code = "INVALID_DOCUMENT_STRUCTURE") :
    i = .documentStructure := by
  cases i
  case documentStructure => rfl
  case missingPart p => cases p <;> simp [code, stem] at h
  case emptyPart p => cases p <;> simp [code, stem] at h
  case partWithoutContent p => cases p <;> simp [code, stem] at h
  case unsuitedElement p tag => cases p <;> simp [code, stem] at h
  case obsoleteReference k number successors => cases k <;> simp [code] at h
  case notInAbstract r number => cases r <;> simp [code] at h
  case onlyInAbstract r number => cases r <;> simp [code] at h
  case relatedNotFound r number => cases r <;> simp [code] at h
  case relatedObsolete r number successors => cases r <;> simp [code] at h
  case ipv4 concern address => cases concern <;> simp [code] at h
  case ipv6 concern address => cases concern <;> simp [code] at h
  all_goals simp [code] at h

/-- The nit about a document without header or title, which is the same in every mode. -/
def Nit.unstructured : Nit :=
  ⟨.error, Issue.documentStructure.code, Issue.documentStructure.message, Issue.documentStructure.reference?, none⟩

theorem Finding.nit?_documentStructure (m : Mode) :
    (anywhere .documentStructure).nit? m = some Nit.unstructured := by
  cases m <;> rfl

namespace Rule

open Finding

variable {p : Part} {r : Rule} {d : Plain.Document} {w : World}

theorem nits_requiring (h : requiring? p = some r) (s : Standard) (online : Bool) (m : Mode) :
    ((r.verdict s online (.text d)).answer w).nits m =
      .ok ((Rules.plainPart d p).filterMap (nit? m) ++ (Rules.moreAbout d p).filterMap (nit? m)) := by
  rw [Rules.answer_verdict_requiring h, ← List.filterMap_append]
  rfl

theorem code_of_mem_more {m : Mode} {n : Nit} (h : n ∈ (Rules.moreAbout d p).filterMap (nit? m)) :
    p = .authors ∧ n.code = "TOO_MANY_AUTHORS" := by
  obtain ⟨f, hf, hnit⟩ := List.mem_filterMap.mp h
  rw [(code_places_of_nit? hnit).1]
  exact Rules.code_of_mem_moreAbout hf

/-- In a document with header and title the rule tells how its lines stand. -/
theorem exists_tells {fileName : Option Text} {t : Text} (hheader : (Plain.Document.ofText fileName t).hasHeader)
    (h : requiring? p = some r) (s : Standard) (online : Bool) :
    ∃ ns, ((r.verdict s online (.text (.ofText fileName t))).answer w).nits .normal = .ok ns ∧
      (Plain.Document.ofText fileName t).Tells p ns := by
  obtain ⟨hp, hr⟩ := ne_of_requiring? h
  refine ⟨_, nits_requiring h s online .normal, Plain.Document.Tells.append ?_ fun n hn => code_of_mem_more hn⟩
  rw [Rules.plainPart_ofText hheader hp hr]
  cases hlast : ((Plain.Document.ofText fileName t).headings p).getLast? with
  | none =>
    obtain ⟨n, hn⟩ := exists_nit?_normal (anywhere (Rules.missing (Plain.Document.ofText fileName t).kind p))
    dsimp only
    rw [List.filterMap_cons_some hn, List.filterMap_nil]
    refine Plain.Document.tells_missing (List.getLast?_eq_none_iff.mp hlast) ?_
    rw [(code_places_of_nit? hn).1]
    exact Rules.code_missing _ p
  | some num =>
    dsimp only
    split_ifs with hempty
    · obtain ⟨n, hn⟩ := exists_nit?_normal (onLines (.emptyPart p) [num])
      obtain ⟨hcode, hplaces⟩ := code_places_of_nit? hn
      rw [List.filterMap_cons_some hn, List.filterMap_nil]
      exact Plain.Document.tells_empty hlast hempty hcode hplaces
    · exact Plain.Document.tells_nothing hlast hempty

/-- Without header or title it tells nothing else. -/
theorem exists_codes_unstructured (hheader : d.hasHeader = false) (h : requiring? p = some r) (s : Standard)
    (online : Bool) (m : Mode) :
    ∃ ns, ((r.verdict s online (.text d)).answer w).nits m = .ok ns ∧
      (ns.map Nit.code).filter (· != "TOO_MANY_AUTHORS") = ["INVALID_DOCUMENT_STRUCTURE"] := by
  refine ⟨_, nits_requiring h s online m, ?_⟩
  have hmore : (((Rules.moreAbout d p).filterMap (nit? m)).map Nit.code).filter (· != "TOO_MANY_AUTHORS") = [] := by
    rw [List.filter_eq_nil_iff, List.forall_mem_map]
    intro n hn
    simp [(code_of_mem_more hn).2]
  rw [Rules.plainPart_of_not_hasHeader hheader, List.filterMap_cons_some (nit?_documentStructure m), List.map_append,
    List.filter_append, hmore]
  rfl

end Rule

namespace Plain.Document

variable {fileName : Option Text} {t : Text}

/-- The header was found if there is a title. -/
theorem hasHeader_ofText (fileName : Option Text) (t : Text) :
    (ofText fileName t).hasHeader = (ofText fileName t).scan.title.isSome := by
  have hf := (Scan.Reached.readLines (Text.lines (prepare t))).fronted
  have hparts : (ofText fileName t).scan.withoutParts =
      (Scan.initial.readLines (Text.numberFrom 1 (Text.lines (prepare t)))).withoutParts :=
    Scan.withoutParts_closePart hf.part_ne_header
  have hheader : (ofText fileName t).scan.extents.header =
      (Scan.initial.readLines (Text.numberFrom 1 (Text.lines (prepare t)))).extents.header :=
    congrArg (fun s => s.extents.header) hparts
  have htitle : (ofText fileName t).scan.title =
      (Scan.initial.readLines (Text.numberFrom 1 (Text.lines (prepare t)))).title := by
    have hw := congrArg Scan.title hparts
    exact hw
  rw [hasHeader, hheader, htitle, ← hf.closed_eq, Bool.and_eq_right_iff_imp]
  exact hf.found_of_closed

theorem bodyLines_of_not_hasHeader (h : (ofText fileName t).hasHeader = false) :
    (ofText fileName t).bodyLines = [] :=
  Scan.bodyLines_of_untitled ((hasHeader_ofText fileName t).symm.trans h)

theorem not_readAsReferences {d : Document} (h : d.bodyLines = []) (num : Nat) : ¬d.ReadAsReferences num := by
  simp [ReadAsReferences, InReferences, EndsReferences, h]

theorem entries_eq_nil {es : List Entry} (h : ∀ v, v ∉ es.map Entry.value) : es = [] :=
  List.map_eq_nil_iff.mp (List.eq_nil_iff_forall_not_mem.mpr h)

/-- Without header or title nothing is listed as a reference. -/
theorem listed_of_not_hasHeader (h : (ofText fileName t).hasHeader = false) :
    (ofText fileName t).scan.items.listedRfcs = [] ∧ (ofText fileName t).scan.items.listedLabels = [] := by
  have hnone := not_readAsReferences (bodyLines_of_not_hasHeader h)
  constructor
  · apply entries_eq_nil
    intro v hv
    obtain ⟨l, -, -, -, hplace⟩ := (mem_listedRfcs_ofText fileName t v).mp hv
    exact hnone l.1 hplace
  · apply entries_eq_nil
    intro v hv
    obtain ⟨s, -, -, l, -, -, -, hplace⟩ := (mem_listedLabels_ofText fileName t v).mp hv
    exact hnone l.1 hplace

end Plain.Document

namespace Review

open Finding Plain

variable {today : Date} {q : Request} {m : Mode} {fileName : Option Text} {t : Text} {w : World} {r : Review}

/-- If nothing is listed, replies of any form suit the rules, but that the registry has to be readable. -/
theorem suits_of_not_hasHeader (h : (Document.ofText fileName t).hasHeader = false)
    (hregistry : ∀ page ∈ w Site.downrefRegistry, Registry.Readable page) (rule : Rule) :
    Rules.Suits w (.text (.ofText fileName t)) rule := by
  obtain ⟨hrfcs, hlabels⟩ := Document.listed_of_not_hasHeader h
  have hkind : ∀ k, Rules.Suits.SuitsKind w (.text (.ofText fileName t)) k := by
    intro k numbers hnumbers n hn
    rw [Rules.referencedRfcs, hrfcs] at hnumbers
    obtain rfl := Except.ok.inj hnumbers
    cases hn
  cases rule
  case downrefs => exact hregistry
  case normative => exact hkind .normative
  case informative => exact hkind .informative
  case unclassified => exact hkind .unclassified
  case drafts =>
    intro names hnames n hn
    rw [Rules.referencedDrafts, hlabels] at hnames
    obtain rfl := Except.ok.inj hnames
    cases hn
  case succession =>
    intro relation n hn
    cases hn
  all_goals trivial

/-- The review of a document without header or title comes to nits, if the registry is readable where it is asked
for. -/
theorem exists_run_of_not_hasHeader (h : (Document.ofText fileName t).hasHeader = false)
    (hm : Mode.requested q.mode = .ok m)
    (hregistry : asksSites m q.offline = true → ∀ page ∈ w Site.downrefRegistry, Registry.Readable page) :
    ∃ r, ((Review.of today q (.text (.ofText fileName t))).run w .empty).1 = .ok r := by
  have hcites : Rules.CitesNumerals (.text (.ofText fileName t)) := by
    apply Rules.citesNumerals_text
    rw [(Document.listed_of_not_hasHeader h).1]
    exact List.forall_mem_nil _
  have hexamine : ∀ rule : Rule, (rule.examine ⟨today, q.year⟩ (.text (.ofText fileName t))).failure = none := by
    intro rule
    by_cases hrule : rule = .date
    · rw [hrule]
      exact Rules.failure_date_text fun _ hdate => Document.exists_complete_ofText hdate today
    · exact Rule.failure_examine hrule _ _
  have hverdict : ∀ v ∈ verdictsIn w ⟨today, q.year⟩ (asksSites m q.offline) (.text (.ofText fileName t)),
      v.failure = none := by
    refine List.forall_mem_map.mpr fun rule _ => ?_
    rw [Rule.answer_verdict]
    split_ifs with hasks
    · rw [Verdict.failure_andThen]
      refine ⟨hexamine rule, ?_⟩
      by_cases hrule : rule ∈ Rules.asking
      · exact (hcites.failure_inquire hrule).mpr (suits_of_not_hasHeader h (hregistry hasks) rule)
      · cases rule <;> first | rfl | exact absurd (by decide) hrule
    · exact hexamine rule
  rw [run_of hm, merge_eq_ok_iff.mpr ⟨hverdict, rfl⟩]
  exact ⟨_, rfl⟩

/-- A nit about the structure as a whole comes from a finding without places. -/
theorem eq_unstructured (h : ((Review.of today q (.text (.ofText fileName t))).run w .empty).1 = .ok r) {n : Nit}
    (hn : n ∈ r.nits) (hcode : n.code = "INVALID_DOCUMENT_STRUCTURE") : n = Nit.unstructured := by
  obtain ⟨rule, -, f, hf, hnit⟩ := exists_finding_of_run h hn
  have hissue : f.issue = .documentStructure :=
    Issue.eq_documentStructure_of_code ((code_places_of_nit? hnit).1.symm.trans hcode)
  have hplaces : f.places = none := by
    rw [Option.eq_none_iff_forall_ne_some]
    intro ps hps
    exact (verdict_text _ _ rule f hf ps hps).1 hissue
  have hf : f = anywhere .documentStructure := by
    obtain ⟨issue, places⟩ := f
    obtain rfl : issue = .documentStructure := hissue
    obtain rfl : places = none := hplaces
    rfl
  rw [hf, nit?_documentStructure] at hnit
  exact (Option.some.inj hnit).symm

theorem unstructured_mem (hheader : (Document.ofText fileName t).hasHeader = false)
    (h : ((Review.of today q (.text (.ofText fileName t))).run w .empty).1 = .ok r) :
    Nit.unstructured ∈ r.nits := by
  obtain ⟨-, hnits⟩ := merge_eq_ok_iff.mp (merge_of_run h).2
  have habstract : Rule.abstract ∈ Rule.forFormat .text := by decide
  rw [hnits, Text.distinct_eq_eraseDups, List.mem_eraseDups, List.mem_filterMap]
  refine ⟨anywhere .documentStructure, List.mem_flatMap.mpr ?_, nit?_documentStructure r.mode⟩
  refine ⟨_, List.mem_map_of_mem habstract, ?_⟩
  rw [Rules.answer_verdict_requiring (p := .abstract) rfl, Rules.plainPart_of_not_hasHeader hheader]
  exact List.mem_append_left _ (List.mem_singleton_self _)

/-- A review reports once that header or title are not there, though five rules find it. -/
theorem countP_unstructured (hheader : (Document.ofText fileName t).hasHeader = false)
    (h : ((Review.of today q (.text (.ofText fileName t))).run w .empty).1 = .ok r) :
    r.nits.countP (fun n => n.code == "INVALID_DOCUMENT_STRUCTURE") = 1 := by
  have hnodup : r.nits.Nodup := by
    rw [(merge_eq_ok_iff.mp (merge_of_run h).2).2]
    exact Text.nodup_distinct _
  have hsame : ∀ n ∈ r.nits, (n.code == "INVALID_DOCUMENT_STRUCTURE") = true ↔ (n == Nit.unstructured) = true := by
    intro n hn
    rw [beq_iff_eq, beq_iff_eq]
    constructor
    · exact eq_unstructured h hn
    · rintro rfl
      rfl
  rw [List.countP_congr hsame]
  exact List.count_eq_one_of_mem hnodup (unstructured_mem hheader h)

/-- What is said about the parts of plain text.  With header and title, each of the five rules tells exactly how the
lines stand.  Without, each tells only that, and the review tells it once. -/
theorem verdicts_ofText (fileName : Option Text) (t : Text) {p : Part} {rule : Rule}
    (h : Rule.requiring? p = some rule) (s : Standard) (online : Bool) (w : World) :
    ((Document.ofText fileName t).hasHeader →
      ∃ ns, ((rule.verdict s online (.text (.ofText fileName t))).answer w).nits .normal = .ok ns ∧
        (Document.ofText fileName t).Tells p ns) ∧
    ((Document.ofText fileName t).hasHeader = false →
      (∀ m, ∃ ns, ((rule.verdict s online (.text (.ofText fileName t))).answer w).nits m = .ok ns ∧
        (ns.map Nit.code).filter (· != "TOO_MANY_AUTHORS") = ["INVALID_DOCUMENT_STRUCTURE"]) ∧
      ∀ (today : Date) (q : Request),
        (∀ r, ((Review.of today q (.text (.ofText fileName t))).run w .empty).1 = .ok r →
          r.nits.countP (fun n => n.code == "INVALID_DOCUMENT_STRUCTURE") = 1) ∧
        ∀ m, Mode.requested q.mode = .ok m →
          (asksSites m q.offline = true → ∀ page ∈ w Site.downrefRegistry, Registry.Readable page) →
          ∃ r, ((Review.of today q (.text (.ofText fileName t))).run w .empty).1 = .ok r) := by
  refine ⟨fun hheader => Rule.exists_tells hheader h s online, fun hheader => ⟨?_, ?_⟩⟩
  · exact Rule.exists_codes_unstructured hheader h s online
  · intro today q
    exact ⟨fun r hr => countP_unstructured hheader hr,
      fun m hm hregistry => exists_run_of_not_hasHeader hheader hm hregistry⟩

/-- A second abstract without text, and a document of one line. -/
theorem verdicts_ofText_two :
    ∃ (t t' : Text) (w : World),
      t = "Front\n\n\nTitle\n\nAbstract\n\n   Text.\n\nAbstract\n\n1.  Introduction\n".toList ∧
      t' = "A line.\n".toList ∧ w = (fun _ => none) ∧ Rule.requiring? .abstract = some .abstract ∧
      ((Document.ofText none t).hasHeader ∧ (Document.ofText none t).headings .abstract = [6, 10] ∧
        ∃ ns, ((Rule.verdict ⟨⟨2024, 3, 4, by decide⟩, none⟩ true (.text (.ofText none t)) .abstract).answer w).nits
            .normal = .ok ns ∧
          (Document.ofText none t).Tells .abstract ns ∧
          ∃ n ∈ ns, n.code = "EMPTY_ABSTRACT_SECTION" ∧ n.places = some [⟨10, none⟩]) ∧
      (Document.ofText none t').hasHeader = false ∧
        ∃ r, ((Review.of ⟨2024, 3, 4, by decide⟩ ⟨none, false, none⟩ (.text (.ofText none t'))).run w .empty).1 =
            .ok r ∧
          r.nits.countP (fun n => n.code == "INVALID_DOCUMENT_STRUCTURE") = 1 := by
  let t : Text := "Front\n\n\nTitle\n\nAbstract\n\n   Text.\n\nAbstract\n\n1.  Introduction\n".toList
  let t' : Text := "A line.\n".toList
  have hheader : (Document.ofText none t).hasHeader := by decide
  have hheadings : (Document.ofText none t).headings .abstract = [6, 10] := by decide
  have hempty : (Document.ofText none t).IsEmptyFrom .abstract 10 := by decide
  have hheader' : (Document.ofText none t').hasHeader = false := by decide
  obtain ⟨ns, hns, htells⟩ := (verdicts_ofText none t (p := .abstract) rfl ⟨⟨2024, 3, 4, by decide⟩, none⟩ true
    fun _ => none).1 hheader
  have hnit := (htells.empty_iff (some [⟨10, none⟩])).mpr ⟨10, by rw [hheadings]; rfl, hempty, rfl⟩
  obtain ⟨hcount, hreturns⟩ := ((verdicts_ofText none t' (p := .abstract) rfl ⟨⟨2024, 3, 4, by decide⟩, none⟩ true
    fun _ => none).2 hheader').2 ⟨2024, 3, 4, by decide⟩ ⟨none, false, none⟩
  obtain ⟨r, hr⟩ := hreturns .normal rfl fun _ _ hpage => nomatch hpage
  exact ⟨t, t', _, rfl, rfl, rfl, rfl, ⟨hheader, hheadings, ns, hns, htells, hnit⟩, hheader', r, hr, hcount r hr⟩

end Review

end DraftLint
