import DraftLint.Proofs.Attempts
import DraftLint.Proofs.Statement
import DraftLint.Proofs.Text.Distinct
import DraftLint.Rules.Succession

/-!
# Agreement on earlier documents

The attributes of a document and its abstract name the earlier documents that it changes.  Where an abstract lists
them in English, the rule misses the last of three or more, so that it objects to attributes that name the same.
-/

namespace DraftLint.Rules

open Citation

section Difference

variable {α : Type} [BEq α] [LawfulBEq α]

theorem difference_eq_nil_iff {items others : List α} : difference items others = [] ↔ ∀ x ∈ items, x ∈ others := by
  rw [difference, Text.distinct_eq_eraseDups, List.eq_nil_iff_forall_not_mem]
  simp [List.mem_eraseDups]

end Difference

/-- Nothing is found if the same documents are stated and explained. -/
theorem agreement_eq_nil_iff {r : Relation} {c : Claims} :
    agreement r c = [] ↔ ∀ n, n ∈ c.stated ↔ n ∈ c.explained := by
  rw [agreement, List.append_eq_nil_iff, List.map_eq_nil_iff, List.map_eq_nil_iff, difference_eq_nil_iff,
    difference_eq_nil_iff]
  exact ⟨fun h n => ⟨h.1 n, h.2 n⟩, fun h => ⟨fun n => (h n).mp, fun n => (h n).mpr⟩⟩

section Abstract

/-- The text of the abstract in one line. -/
def abstractText (root : Markup.Element) : Text :=
  match abstract? root with
  | some a => Text.squeeze (Text.join [' '] a.pieces)
  | none => []

theorem claims_eq (root : Markup.Element) (r : Relation) : claims root r =
    ⟨numbersIn (root.attributeText (Issue.verb r)), rfcNumbers (abstractText root) (statementOf r)⟩ := by
  cases r <;> rfl

variable {d : Markup.Document} {ns : Relation → List Text}

theorem consistentSuccession_eq_clean_iff :
    consistentSuccession (.markup d) = .clean ↔
      ∀ r n, n ∈ (claims d.root r).stated ↔ n ∈ (claims d.root r).explained := by
  have hclean : consistentSuccession (.markup d) = .clean ↔
      agreement .obsoletes (claims d.root .obsoletes) ++ agreement .updates (claims d.root .updates) = [] := by
    rw [consistentSuccession, Verdict.of, Verdict.clean, Verdict.mk.injEq, and_iff_left rfl]
  rw [hclean, List.append_eq_nil_iff, agreement_eq_nil_iff, agreement_eq_nil_iff]
  refine ⟨fun h r => ?_, fun h => ⟨h _, h _⟩⟩
  cases r with
  | obsoletes => exact h.1
  | updates => exact h.2

theorem mem_dropLast_iff {ns : List Text} :
    (∀ n, n ∈ ns ↔ n ∈ ns.dropLast) ↔ ∀ n ∈ ns.getLast?, n ∈ ns.dropLast := by
  refine ⟨fun h n hn => (h n).mp (List.mem_of_getLast? hn), fun h n => ⟨fun hn => ?_, fun hn => ns.dropLast_subset hn⟩⟩
  have hne : ns ≠ [] := List.ne_nil_of_mem hn
  rw [← List.dropLast_append_getLast hne, List.mem_append, List.mem_singleton] at hn
  rcases hn with hn | rfl
  · exact hn
  · exact h _ (List.getLast?_eq_some_getLast hne)

/-- Of the documents that an abstract lists in English all are understood to be changed if there are no more than
two, and otherwise all but the last.  If the attributes name the same documents, the rule is content exactly if none
is missed that is not listed twice. -/
theorem consistentSuccession_of_tells (htells : ∀ r, Tells r (abstractText d.root) (ns r))
    (hattributes : ∀ r n, n ∈ numbersIn (d.root.attributeText (Issue.verb r)) ↔ n ∈ ns r) :
    (∀ r, rfcNumbers (abstractText d.root) (statementOf r) =
      if (ns r).length ≤ 2 then ns r else (ns r).dropLast) ∧
    (consistentSuccession (.markup d) = .clean ↔
      ∀ r, (ns r).length ≤ 2 ∨ ∀ n ∈ (ns r).getLast?, n ∈ (ns r).dropLast) := by
  have hread : ∀ r, rfcNumbers (abstractText d.root) (statementOf r) =
      if (ns r).length ≤ 2 then ns r else (ns r).dropLast := fun r => rfcNumbers_of_tells (htells r)
  refine ⟨hread, ?_⟩
  rw [consistentSuccession_eq_clean_iff]
  refine forall_congr' fun r => ?_
  rw [claims_eq]
  simp only [hattributes, hread]
  split_ifs with hlength
  · exact iff_of_true (fun n => Iff.rfl) (.inl hlength)
  · rw [mem_dropLast_iff, or_iff_right hlength]

/-- A document that says by an attribute and in its abstract which documents it obsoletes. -/
def obsoleting (numbers abstract : String) : Markup.Document where
  fileName := none
  root := ⟨⟨"rfc".toList, 1, [("obsoletes".toList, numbers.toList)]⟩,
    [.element ⟨"front".toList, 1, []⟩ [.element ⟨"abstract".toList, 1, []⟩ [.text abstract.toList]]]⟩
  entities := []
  kind := .unknown

/-- The first two documents are obsoleted, and none is updated. -/
def firstTwo : Relation → List Text
  | .obsoletes => ["1".toList, "2".toList]
  | .updates => []

/-- Two documents, both of which are understood to be obsoleted. -/
theorem consistentSuccession_two :
    consistentSuccession (.markup (obsoleting "1, 2" "This document obsoletes RFC 1 and RFC 2.")) = .clean := by
  have htext : abstractText (obsoleting "1, 2" "This document obsoletes RFC 1 and RFC 2.").root =
      "This document ".toList ++ ("obsoletes".toList ++ ([' '] ++ (english ["1".toList, "2".toList] ++ ".".toList))) := by
    decide +kernel
  have htells : ∀ r, Tells r (abstractText (obsoleting "1, 2" "This document obsoletes RFC 1 and RFC 2.").root)
      (firstTwo r) := by
    rintro (_ | _)
    · rw [htext]
      exact .list (List.mem_cons_self ..) (List.cons_ne_nil _ _) (by decide +kernel) (by decide +kernel)
        (by decide +kernel) (by decide +kernel)
    · exact .nothing (by decide +kernel)
  refine (consistentSuccession_of_tells htells ?_).2.mpr ?_
  · have hnumbers : numbersIn ((obsoleting "1, 2" "This document obsoletes RFC 1 and RFC 2.").root.attributeText
        "obsoletes") = ["1".toList, "2".toList] := by
      decide +kernel
    have hnone : numbersIn ((obsoleting "1, 2" "This document obsoletes RFC 1 and RFC 2.").root.attributeText
        "updates") = [] := by
      decide +kernel
    rintro (_ | _) n
    · exact iff_of_eq (congrArg (n ∈ ·) hnumbers)
    · exact iff_of_eq (congrArg (n ∈ ·) hnone)
  · rintro (_ | _)
    · exact .inl (Nat.le_refl 2)
    · exact .inl (Nat.zero_le 2)

/-- Three documents, the last of which is missed. -/
theorem consistentSuccession_three :
    ∃ m, Markup.Document.ofOctets none (Utf8.encode ("<rfc obsoletes=\"1, 2, 3\"><front><abstract><t>" ++
        "This document obsoletes RFC 1, RFC 2, and RFC 3.</t></abstract></front></rfc>").toList) = .ok m ∧
      Tells .obsoletes (abstractText m.root) ["1".toList, "2".toList, "3".toList] ∧
      Tells .updates (abstractText m.root) [] ∧
      (claims m.root .obsoletes).stated = ["1".toList, "2".toList, "3".toList] ∧
      (claims m.root .obsoletes).explained = ["1".toList, "2".toList] ∧ (claims m.root .updates).stated = [] ∧
      consistentSuccession (.markup m) ≠ .clean := by
  obtain ⟨m, hm, htext, hstated, hexplained, hnone, hfindings⟩ := Attempts.exists_of_decide
    (x := Markup.Document.ofOctets none (Utf8.encode ("<rfc obsoletes=\"1, 2, 3\"><front><abstract><t>" ++
      "This document obsoletes RFC 1, RFC 2, and RFC 3.</t></abstract></front></rfc>").toList))
    (p := fun m => abstractText m.root = "This document ".toList ++ ("obsoletes".toList ++ ([' '] ++
        (english ["1".toList, "2".toList, "3".toList] ++ ".".toList))) ∧
      (claims m.root .obsoletes).stated = ["1".toList, "2".toList, "3".toList] ∧
      (claims m.root .obsoletes).explained = ["1".toList, "2".toList] ∧ (claims m.root .updates).stated = [] ∧
      (consistentSuccession (.markup m)).findings.isEmpty = false)
    (by decide +kernel)
  refine ⟨m, hm, ?_, ?_, hstated, hexplained, hnone, fun hclean => ?_⟩
  · rw [htext]
    exact .list (List.mem_cons_self ..) (List.cons_ne_nil _ _) (by decide +kernel) (by decide +kernel)
      (by decide +kernel) (by decide +kernel)
  · rw [htext]
    exact .nothing (by decide +kernel)
  · rw [hclean] at hfindings
    cases hfindings

end Abstract

end DraftLint.Rules
