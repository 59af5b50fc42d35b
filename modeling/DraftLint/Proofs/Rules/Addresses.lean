import DraftLint.Proofs.Address.Literals
import DraftLint.Proofs.Plain.Joining
import DraftLint.Rules.Wording

/-!
# Addresses in a document

The dotted quads on the visible lines of a plain-text document, and those among them that stand alone.  The literals of
IPv6 addresses that are found in a document of either format.
-/

namespace DraftLint

section Lists

variable {α β : Type} {f : α → List β} {p : α → Bool} {g : α → β}

theorem length_filter_le_flatMap (h : ∀ a, p a → f a = [g a]) (as : List α) :
    (as.filter p).length ≤ (as.flatMap f).length := by
  induction as with
  | nil => exact Nat.le_refl 0
  | cons a as ih =>
    rw [List.flatMap_cons, List.length_append, List.filter_cons]
    split_ifs with ha
    · rw [h a ha, List.length_cons, List.length_singleton]
      omega
    · omega

/-- What all items give is what those of a kind give exactly if the others give nothing. -/
theorem flatMap_eq_map_filter_iff (h : ∀ a, p a → f a = [g a]) (as : List α) :
    as.flatMap f = (as.filter p).map g ↔ ∀ a ∈ as, p a ∨ f a = [] := by
  induction as with
  | nil => simp
  | cons a as ih =>
    rw [List.flatMap_cons, List.forall_mem_cons, List.filter_cons]
    refine Iff.trans ?_ (and_congr Iff.rfl ih)
    split_ifs with ha
    · simp [h a ha, ha]
    · constructor
      · intro heq
        have hlength := congrArg List.length heq
        rw [List.length_append, List.length_map] at hlength
        have hnil : f a = [] := by
          rw [← List.length_eq_zero_iff]
          have hmore := length_filter_le_flatMap h as
          omega
        exact ⟨.inr hnil, by rwa [hnil] at heq⟩
      · rintro ⟨hp | hnil, heq⟩
        · exact absurd hp ha
        · rw [hnil, heq]
          rfl

end Lists

namespace Plain

/-- What is found line by line is found on the visible lines in turn. -/
theorem Words.flatMap_ofLines {α : Type} {f : Words → List α} {find : Text → List α} (hnone : f none = [])
    (happend : ∀ w w', f (append w w') = f w ++ f w')
    (hline : ∀ num line, f (Items.empty.addWords num line (Text.trim line)).words = find (Text.trim line))
    (lines : List (Nat × Text)) :
    f (ofLines lines) = (lines.filter fun l => Text.isVisible l.2).flatMap fun l => find (Text.trim l.2) := by
  induction lines with
  | nil => exact hnone
  | cons l lines ih =>
    obtain ⟨num, line⟩ := l
    rw [ofLines, happend, ih, ofLine, List.filter_cons]
    split_ifs
    · rw [hline]
      rfl
    · rw [hnone]
      rfl

namespace Document

/-- On every visible line the numbers of a dotted sequence are taken by four, and these are the quads that stand alone
exactly if the other sequences have fewer than four numbers to take, or fewer than eight as the number of a heading. -/
theorem quads_ofText (fileName : Option Text) (t : Text) :
    (ofText fileName t).scan.items.ipv4 =
        ((ofText fileName t).lines.filter fun l => Text.isVisible l.2).flatMap
          (fun l => Items.quadsIn (Text.trim l.2)) ∧
      ∀ line, Items.quadsIn line = (Address.sequences line).flatMap (·.blocks (Heading.deepNumber.leads line)) ∧
        (Items.quadsIn line = Address.quads line ↔
          ∀ s ∈ Address.sequences line, s.isQuad (Heading.deepNumber.leads line) ∨
            s.free.length < if s.ofHeading (Heading.deepNumber.leads line) then 8 else 4) := by
  refine ⟨?_, fun line => ⟨Items.quadsIn_eq line, ?_⟩⟩
  · have hwords := congrArg Words.ipv4 (words_ofText fileName t)
    exact hwords.trans (Words.flatMap_ofLines rfl (fun _ _ => rfl) (fun _ _ => rfl) _)
  · rw [Items.quadsIn_eq, Address.quads, flatMap_eq_map_filter_iff fun s => Address.Sequence.blocks_of_isQuad]
    simp only [Address.Sequence.blocks_eq_nil_iff]

/-- The first four numbers of a longer sequence are taken, and so are the last of the number of a heading. -/
theorem quads_ofText_ne :
    (ofText none "OID 1.3.6.1.4.1\n1.2.3.4.5.6.7.8. Title".toList).scan.items.ipv4 =
      ["1.3.6.1".toList, "5.6.7.8".toList] ∧
    (ofText none "OID 1.3.6.1.4.1\n1.2.3.4.5.6.7.8. Title".toList).scan.items.ipv4 ≠
      ((ofText none "OID 1.3.6.1.4.1\n1.2.3.4.5.6.7.8. Title".toList).lines.filter fun l => Text.isVisible l.2).flatMap
        fun l => Address.quads (Text.trim l.2) := by
  decide +kernel

theorem ipv6_ofText (fileName : Option Text) (t : Text) :
    (ofText fileName t).scan.items.ipv6 =
      ((ofText fileName t).lines.filter fun l => Text.isVisible l.2).flatMap
        fun l => Address.IPv6.candidatesIn (Text.trim l.2) := by
  have hwords := congrArg Words.ipv6 (words_ofText fileName t)
  exact hwords.trans (Words.flatMap_ofLines rfl (fun _ _ => rfl) (fun _ _ => rfl) _)

end Document
end Plain

namespace Rules

open Address

/-- The text stands alone on a visible line of a plain-text document or in the running text of a marked-up one. -/
inductive StandsIn (s : Text) : Document → Prop
  | line {fileName : Option Text} {t : Text} {l : Nat × Text} (hl : l ∈ (Plain.Document.ofText fileName t).lines)
      (hvisible : Text.isVisible l.2) (hs : IPv6.Stands s l.2) : StandsIn s (.text (.ofText fileName t))
  | prose {d : Markup.Document} (hs : IPv6.Stands s d.root.runningText) : StandsIn s (.markup d)

/-- An address that stands alone is found exactly if it is written with at most seven colons. -/
theorem mem_addresses_iff {s : Text} {a : IPv6} {d : Document} (h : IPv6.read? s = some a) (hs : StandsIn s d) :
    s ∈ (addresses d).ipv6 ↔ s.count ':' ≤ 7 := by
  obtain ⟨hne, hfree⟩ := IPv6.not_isBlank_of_read? h
  cases hs with
  | prose hs => exact ⟨IPv6.count_of_mem_candidatesIn, IPv6.mem_candidatesIn h hs⟩
  | @line fileName t l hl hvisible hs =>
    rw [addresses, Plain.Document.ipv6_ofText]
    constructor
    · intro hmem
      obtain ⟨l, -, hmem⟩ := List.mem_flatMap.mp hmem
      exact IPv6.count_of_mem_candidatesIn hmem
    · intro hcount
      exact List.mem_flatMap.mpr ⟨l, List.mem_filter.mpr ⟨hl, hvisible⟩,
        IPv6.mem_candidatesIn h (hs.trim hne hfree) hcount⟩

theorem mem_addresses_of_quad :
    IPv6.read? "2001:DB8::192.0.2.33".toList = some ⟨0x20010DB80000000000000000C0000221⟩ ∧
    StandsIn "2001:DB8::192.0.2.33".toList (.text (.ofText none "See 2001:DB8::192.0.2.33\there.".toList)) ∧
    "2001:DB8::192.0.2.33".toList.count ':' ≤ 7 ∧
    "2001:DB8::192.0.2.33".toList ∈
      (addresses (.text (.ofText none "See 2001:DB8::192.0.2.33\there.".toList))).ipv6 := by
  have hread : IPv6.read? "2001:DB8::192.0.2.33".toList = some ⟨0x20010DB80000000000000000C0000221⟩ := by decide
  have hstands : StandsIn "2001:DB8::192.0.2.33".toList
      (.text (.ofText none "See 2001:DB8::192.0.2.33\there.".toList)) := by
    refine .line (l := (1, "See 2001:DB8::192.0.2.33        here.".toList)) (by decide) (by decide) ?_
    exact ⟨"See ".toList, "        here.".toList, by decide, by rintro c ⟨⟩; decide, by rintro c ⟨⟩; decide⟩
  exact ⟨hread, hstands, by decide, (mem_addresses_iff hread hstands).mpr (by decide)⟩

/-- A gap that stands for one group at either end takes an eighth colon. -/
theorem not_mem_addresses_of_gap_at_end :
    IPv6.read? "1:2:3:4:5:6:7::".toList = some ⟨0x00010002000300040005000600070000⟩ ∧
    StandsIn "1:2:3:4:5:6:7::".toList (.text (.ofText none "Use 1:2:3:4:5:6:7:: here.".toList)) ∧
    "1:2:3:4:5:6:7::".toList ∉ (addresses (.text (.ofText none "Use 1:2:3:4:5:6:7:: here.".toList))).ipv6 := by
  refine ⟨by decide, ?_, by decide +kernel⟩
  refine .line (l := (1, "Use 1:2:3:4:5:6:7:: here.".toList)) (by decide) (by decide) ?_
  exact ⟨"Use ".toList, " here.".toList, by decide, by rintro c ⟨⟩; decide, by rintro c ⟨⟩; decide⟩

end Rules
end DraftLint
