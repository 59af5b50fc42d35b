import DraftLint.Proofs.FileName
import DraftLint.Proofs.Grading
import DraftLint.Rules.Naming

/-!
# Names that are accepted

The rules on the name of a file accept a grammar, and besides it the same names with a line feed in front of the full
stop: the end of a line is also in front of its line feed, so that the characters of a base may be followed by one.
-/

namespace DraftLint.Rules

open Finding Issue FileName Citation

/-- A base of small letters, digits and dashes, then `ending`, a full stop, and the name of the format as the extension,
in either case.  Without its revision the base, with `ending`, has the components of a draft's name. -/
structure IsNamed (f : Format) (ending base extension : Text) : Prop where
  nameChar : ∀ c ∈ base, nameChar c
  components : IsDraftName (unversioned base ++ ending)
  extension_eq : extension.map Char.toLower = f.name.toList

/-- The names that drafts may have, with `ending` between the base and the full stop. -/
def InGrammar (f : Format) (ending name : Text) : Prop :=
  name.length ≤ maxFileNameLength ∧ ∃ base extension, name = base ++ (ending ++ '.' :: extension) ∧
    IsNamed f ending base extension

/-- Neither rule on the name of the file reports anything. -/
def AcceptsName (m : Mode) (d : Document) : Prop :=
  (fileName d).nits m = .ok [] ∧ (draftName d).nits m = .ok []

section Grammar

variable {f : Format} {path z b e : Text}

theorem isPlainSmall_name (f : Format) : ∀ c ∈ f.name.toList, Text.isPlainSmall c := by
  cases f <;> decide

theorem newline_not_mem (h : ∀ c ∈ b, nameChar c) : '\n' ∉ b :=
  fun hmem => absurd (h _ hmem) (by decide)

/-- The extension of a format has letters only. -/
theorem not_mem_extension {c : Char} (h : e.map Char.toLower = f.name.toList)
    (hc : Text.isPlainSmall c.toLower = false) : c ∉ e := by
  intro hmem
  have hsmall := isPlainSmall_name f _ (h ▸ List.mem_map_of_mem hmem)
  rw [hc] at hsmall
  cases hsmall

theorem IsNamed.ne_nil (h : IsNamed f z b e) (hz : z = [] ∨ z = ['\n']) : b ≠ [] := by
  rintro rfl
  have hthree := h.components.three
  rcases hz with rfl | rfl
  · exact absurd hthree (by decide)
  · exact absurd hthree (by decide)

theorem IsNamed.split_eq (h : IsNamed f z b e) (hz : z = [] ∨ z = ['\n']) (hbase : base path = b ++ (z ++ '.' :: e)) :
    split path = (b ++ z, f.name.toList) := by
  have hlast : ∃ c ∈ (b ++ z).getLast?, c ≠ '.' ∧ c ≠ '/' := by
    rcases hz with rfl | rfl
    · obtain ⟨b, c, rfl⟩ := (List.eq_nil_or_concat' b).resolve_left (h.ne_nil (.inl rfl))
      have hc := h.nameChar c (List.mem_append_right b (List.mem_singleton_self c))
      refine ⟨c, by simp, ?_, ?_⟩
      · rintro rfl
        exact absurd hc (by decide)
      · rintro rfl
        exact absurd hc (by decide)
    · exact ⟨'\n', by simp, by decide, by decide⟩
  have hlower : Text.lower e = f.name.toList := (Text.lower_eq_iff (isPlainSmall_name f)).mpr h.extension_eq
  have hdot : '.' ∉ e := not_mem_extension h.extension_eq (by decide)
  have hslash : '/' ∉ e := not_mem_extension h.extension_eq (by decide)
  rw [← List.append_assoc] at hbase
  rw [split_of_splitExtension hdot (hbase ▸ splitExtension_append hlast hdot hslash), hlower]

/-- The tests of the two rules come to the grammar, with or without a line feed in front of the full stop. -/
theorem inGrammar_or_iff :
    InGrammar f [] (base path) ∨ InGrammar f ['\n'] (base path) ↔
      plain.leads (split path).1 ∧ (split path).2 = f.name.toList ∧ (base path).length ≤ maxFileNameLength ∧
        isMalformed (split path).1 = false := by
  have hone : InGrammar f [] (base path) ∨ InGrammar f ['\n'] (base path) ↔
      ∃ z, (z = [] ∨ z = ['\n']) ∧ InGrammar f z (base path) := by
    simp [or_and_right, exists_or]
  rw [hone]
  constructor
  · rintro ⟨z, hz, hlength, b, e, hbase, hnamed⟩
    rw [hnamed.split_eq hz hbase]
    refine ⟨leads_plain_iff.mpr ⟨b, z, rfl, hnamed.ne_nil hz, hnamed.nameChar, hz⟩, rfl, hlength, ?_⟩
    rw [isMalformed_eq_false_iff, withoutRevision_append hz (newline_not_mem hnamed.nameChar)]
    exact hnamed.components
  · rintro ⟨hplain, hextension, hlength, hcomponents⟩
    obtain ⟨b, z, hstem, -, hchars, hz⟩ := leads_plain_iff.mp hplain
    rcases exists_split path with hsplit | ⟨s, e, -, hbase, hsplit⟩
    · rw [hsplit] at hextension
      cases f <;> cases hextension
    · rw [hsplit] at hstem hextension hcomponents
      obtain rfl : s = b ++ z := hstem
      refine ⟨z, hz, hlength, b, e, by rw [hbase, List.append_assoc], hchars, ?_, ?_⟩
      · rw [← withoutRevision_append hz (newline_not_mem hchars)]
        exact isMalformed_eq_false_iff.mp hcomponents
      · exact (Text.lower_eq_iff (isPlainSmall_name f)).mp hextension

/-- A name with the line feed is not one without. -/
theorem not_inGrammar_of_newline {name : Text} (h : InGrammar f ['\n'] name) : ¬InGrammar f [] name := by
  rintro ⟨-, b, e, rfl, hnamed⟩
  obtain ⟨-, b', e', heq, -⟩ := h
  have hmem : '\n' ∈ b ++ ([] ++ '.' :: e) := by
    rw [heq]
    simp
  have hextension := not_mem_extension hnamed.extension_eq (c := '\n') (by decide)
  simp [newline_not_mem hnamed.nameChar, hextension] at hmem

end Grammar

section Reports

variable {i : Issue} {d : Document} {m : Mode} {path : Text}

/-- What is an error in every mode is reported unless there is nothing to object to. -/
theorem filterMap_objectUnless (ok : Bool) (m : Mode) (hi : i.gravity = .always .error) :
    (objectUnless ok i).filterMap (Finding.nit? m) = [] ↔ ok = true := by
  cases ok with
  | true => simp [objectUnless]
  | false =>
    have hgraded : (anywhere i).nit? m ≠ none := by
      rw [Finding.nit?, Nit.graded?, anywhere, hi]
      cases m <;> exact Option.some_ne_none _
    obtain ⟨n, hn⟩ := Option.ne_none_iff_exists'.mp hgraded
    simp [objectUnless, hn]

theorem nits_fileName_eq_nil_iff (hpath : givenName? d = some path) :
    (fileName d).nits m = .ok [] ↔
      plain.leads (split path).1 ∧ (split path).2 = d.format.name.toList ∧ (base path).length ≤ maxFileNameLength ∧
        ∀ n ∈ declaredName? d, n = withoutRevision (split path).1 := by
  rw [fileName, hpath]
  simp only [Verdict.nits, Verdict.of, Except.ok.injEq, List.filterMap_append, List.append_eq_nil_iff,
    filterMap_objectUnless _ m (rfl : (fileNameCharacters _).gravity = _),
    filterMap_objectUnless _ m (rfl : (fileNameExtension _ _).gravity = _),
    filterMap_objectUnless _ m (rfl : (fileNameLength _).gravity = _), beq_iff_eq, decide_eq_true_eq, and_assoc]
  cases declaredName? d with
  | none => simp
  | some n =>
    simp only [filterMap_objectUnless _ m (rfl : (fileNameOther _ _).gravity = _), beq_iff_eq, Option.mem_def,
      Option.some.injEq, forall_eq', @eq_comm _ (withoutRevision _) n]

theorem nits_draftName_eq_nil_iff (hpath : givenName? d = some path) (hdraft : d.kind = .draft) :
    (draftName d).nits m = .ok [] ↔ isMalformed (split path).1 = false := by
  rw [draftName, hpath]
  simp only [Verdict.nits, Verdict.of, Except.ok.injEq, if_pos hdraft,
    filterMap_objectUnless _ m (rfl : (malformedDraftName _).gravity = _), Bool.not_eq_true']

end Reports

/-- The two rules accept the name of a draft's file exactly if it is in the grammar, or would be without a line feed in
front of the full stop.  So they accept the grammar exactly unless the name has that line feed.  An empty name is none,
and is not looked at. -/
theorem acceptsName_iff (d : Document) (path : Text) (m : Mode) (hdraft : d.kind = .draft)
    (hpath : d.fileName = some path) (hdeclared : ∀ n ∈ declaredName? d, n = withoutRevision (split path).1) :
    (AcceptsName m d ↔
      path = [] ∨ InGrammar d.format [] (base path) ∨ InGrammar d.format ['\n'] (base path)) ∧
    (path ≠ [] → ((AcceptsName m d ↔ InGrammar d.format [] (base path)) ↔
      ¬InGrammar d.format ['\n'] (base path))) := by
  have haccepts : AcceptsName m d ↔
      path = [] ∨ InGrammar d.format [] (base path) ∨ InGrammar d.format ['\n'] (base path) := by
    by_cases hne : path = []
    · have hgiven : givenName? d = none := by
        rw [givenName?, hpath, hne]
        rfl
      rw [AcceptsName, fileName, draftName, hgiven]
      exact iff_of_true ⟨rfl, rfl⟩ (.inl hne)
    · have hgiven : givenName? d = some path := by
        rw [givenName?, hpath]
        exact Option.filter_some_pos (by simpa using hne)
      rw [AcceptsName, nits_fileName_eq_nil_iff hgiven, nits_draftName_eq_nil_iff hgiven hdraft, inGrammar_or_iff]
      grind
  refine ⟨haccepts, fun hne => ?_⟩
  rw [haccepts]
  have hexcludes : InGrammar d.format ['\n'] (base path) → ¬InGrammar d.format [] (base path) :=
    not_inGrammar_of_newline
  grind

/-- A document that does not give itself a name. -/
def unnamedDocument (fileName : String) : Document :=
  .markup ⟨some fileName.toList, ⟨⟨"rfc".toList, 1, []⟩, []⟩, [], .draft⟩

/-- A name with a revision, and the extension in capitals. -/
theorem acceptsName_revised : (unnamedDocument "a/draft-doe-tls-00.XML").kind = .draft ∧
    (unnamedDocument "a/draft-doe-tls-00.XML").fileName = some "a/draft-doe-tls-00.XML".toList ∧
    declaredName? (unnamedDocument "a/draft-doe-tls-00.XML") = none ∧
    InGrammar .markup [] "draft-doe-tls-00.XML".toList ∧
    AcceptsName .normal (unnamedDocument "a/draft-doe-tls-00.XML") := by
  have hdeclared : declaredName? (unnamedDocument "a/draft-doe-tls-00.XML") = none := by decide
  have hgrammar : InGrammar .markup [] "draft-doe-tls-00.XML".toList :=
    ⟨by decide, "draft-doe-tls-00".toList, "XML".toList, by decide, by decide,
      ⟨by decide, by decide, by decide⟩, by decide⟩
  have haccepts := (acceptsName_iff (unnamedDocument "a/draft-doe-tls-00.XML") "a/draft-doe-tls-00.XML".toList .normal
    rfl rfl (by rw [hdeclared]; exact fun _ h => by cases h)).1
  exact ⟨rfl, rfl, hdeclared, hgrammar, haccepts.mpr (.inr (.inl hgrammar))⟩

/-- A line feed in front of the full stop is accepted, though no name in the grammar has one. -/
theorem not_acceptsName_iff_inGrammar : ¬∀ (d : Document) (path : Text), d.kind = .draft → d.fileName = some path →
    path ≠ [] → (∀ n ∈ declaredName? d, n = withoutRevision (split path).1) →
    (AcceptsName .normal d ↔ InGrammar d.format [] (base path)) := by
  intro h
  have hdeclared : declaredName? (unnamedDocument "draft-a-b\n.xml") = none := by decide
  have hexact := h (unnamedDocument "draft-a-b\n.xml") "draft-a-b\n.xml".toList rfl rfl (by decide)
    (by rw [hdeclared]; exact fun _ h => by cases h)
  have haccepts : AcceptsName .normal (unnamedDocument "draft-a-b\n.xml") :=
    ⟨by decide +kernel, by decide +kernel⟩
  have hnewline : InGrammar .markup ['\n'] "draft-a-b\n.xml".toList :=
    ⟨by decide, "draft-a-b".toList, "xml".toList, by decide, by decide,
      ⟨by decide, by decide, by decide⟩, by decide⟩
  exact not_inGrammar_of_newline hnewline (hexact.mp haccepts)

end DraftLint.Rules
