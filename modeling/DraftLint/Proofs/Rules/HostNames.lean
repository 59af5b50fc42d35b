import DraftLint.Proofs.Address.HostNames
import DraftLint.Proofs.Rules.Addresses
import DraftLint.Proofs.Text.Distinct

/-!
# Host names in a document

Every host name that stands alone in a document is found, as a whole and once, and is reported unless it is the name of a
file or set aside for examples.
-/

namespace DraftLint

theorem Verdict.nits_of (m : Mode) (fs : List Finding) :
    (Verdict.of fs).nits m = .ok (fs.filterMap (Finding.nit? m)) :=
  rfl

theorem Plain.Document.hosts_ofText (fileName : Option Text) (t : Text) :
    (ofText fileName t).scan.items.hosts =
      ((ofText fileName t).lines.filter fun l => Text.isVisible l.2).flatMap
        fun l => Address.Host.namesIn (Text.trim l.2) := by
  have hwords := congrArg Words.hosts (words_ofText fileName t)
  exact hwords.trans (Words.flatMap_ofLines rfl (fun _ _ => rfl) (fun _ _ => rfl) _)

namespace Rules

open Address Finding Issue

/-- The texts of a document in which names are looked for: the visible lines, or the running text. -/
def searched : Document → List Text
  | .text d => (d.lines.filter fun l => Text.isVisible l.2).map fun l => Text.trim l.2
  | .markup d => [d.root.runningText]

/-- The nit that a host name is none for documentation. -/
def hostNit (name : Text) : Nit where
  severity := .warning
  code := "FQDN_NOT_EXAMPLE"
  message := "Found domain name '" ++ Text.str name ++
    "', which is not one reserved for documentation (RFC 2606, RFC 6761)."
  reference := some "https://www.rfc-editor.org/info/rfc6761"
  places := none

variable {s s' : Text} {d : Document}

section Searched

theorem StandsIn.hosts_eq (hs : StandsIn s d) : (addresses d).hosts = (searched d).flatMap Host.namesIn := by
  cases hs with
  | prose hs => exact (List.flatMap_singleton Host.namesIn _).symm
  | @line fileName t l hl hvisible hs =>
    rw [addresses, Plain.Document.hosts_ofText, searched, List.flatMap_map]

/-- What stands alone in a document stands alone in a text that is searched. -/
theorem StandsIn.exists_searched (hs : StandsIn s d) (hne : s ≠ []) (hfree : ∀ c ∈ s, Text.isBlank c = false) :
    ∃ t ∈ searched d, IPv6.Stands s t := by
  cases hs with
  | prose hs => exact ⟨_, List.mem_singleton_self _, hs⟩
  | @line fileName t l hl hvisible hs =>
    exact ⟨Text.trim l.2, List.mem_map_of_mem (List.mem_filter.mpr ⟨hl, hvisible⟩), hs.trim hne hfree⟩

end Searched

section Nits

/-- A text that is put into a message can be told from it. -/
theorem eq_of_str_append {a b : String} (h : a ++ Text.str s ++ b = a ++ Text.str s' ++ b) : s = s' := by
  have hchars := congrArg String.toList h
  simp only [String.toList_append, Text.str, String.toList_ofList] at hchars
  exact List.append_cancel_left (List.append_cancel_right hchars)

theorem hostNit_injective : Function.Injective hostNit :=
  fun _ _ h => eq_of_str_append (congrArg Nit.message h)

/-- A name is reported if it is found and neither of a file nor for examples. -/
theorem mem_nits_hostNames (d : Document) : ∃ ns, (hostNames d).nits .normal = .ok ns ∧
    ∀ n, n ∈ ns ↔ ∃ name ∈ (addresses d).hosts, (¬Host.isFileName name ∧ ¬Host.isExample name) ∧ hostNit name = n := by
  rw [hostNames, Verdict.nits_of]
  refine ⟨_, rfl, fun n => ?_⟩
  have hnit : ∀ name, Finding.nit? .normal (anywhere (hostName name)) = some (hostNit name) := fun _ => rfl
  simp only [List.mem_filterMap, Text.mem_distinct]
  constructor
  · rintro ⟨_, ⟨name, hname, hfinding⟩, hn⟩
    split_ifs at hfinding with hallowed
    obtain rfl := Option.some.inj hfinding
    rw [hnit] at hn
    rw [Bool.or_eq_true, not_or] at hallowed
    exact ⟨name, hname, hallowed, Option.some.inj hn⟩
  · rintro ⟨name, hname, hallowed, rfl⟩
    rw [← not_or, ← Bool.or_eq_true] at hallowed
    exact ⟨_, ⟨name, hname, if_neg hallowed⟩, hnit name⟩

end Nits

/-- A host name that stands alone in a document is found.  It stands alone in a text that is searched, and wherever it
does, it is matched as a whole and no other match has any of it.  It is reported exactly if it is neither the name of a
file nor one for examples. -/
theorem hosts_of_isName (h : Host.IsName s) (hs : StandsIn s d) :
    (s ∈ (addresses d).hosts ∧ (addresses d).hosts = (searched d).flatMap Host.namesIn) ∧
      (∃ t ∈ searched d, IPv6.Stands s t) ∧
      (∀ u v, u ++ s ++ v ∈ searched d → (∀ c ∈ u.getLast?, Text.isBlank c) → (∀ c ∈ v.head?, Text.isBlank c) →
        ∃ m ∈ Host.pattern.scan (u ++ s ++ v), m.start = .amid u (s ++ v) ∧ m.stop = .amid (u ++ s) v ∧
          m.group? 1 = some s ∧ ∀ m' ∈ Host.pattern.scan (u ++ s ++ v),
            m'.start.pos < (u ++ s).length → u.length < m'.stop.pos → m' = m) ∧
      ∃ ns, (hostNames d).nits .normal = .ok ns ∧
        (hostNit s ∈ ns ↔ ¬Host.isFileName s ∧ ¬Host.isExample s) := by
  have hstands := hs.exists_searched h.spec.1 h.not_isBlank
  have hfound : s ∈ (addresses d).hosts := by
    obtain ⟨t, ht, u, v, rfl, hu, hv⟩ := hstands
    rw [hs.hosts_eq]
    exact List.mem_flatMap.mpr ⟨_, ht, List.mem_filterMap.mpr ⟨_, (Host.found_whole h hu hv).1, Host.group?_matchOf u s v⟩⟩
  refine ⟨⟨hfound, hs.hosts_eq⟩, hstands, fun u v _ hu hv => ?_, ?_⟩
  · obtain ⟨hmem, honly⟩ := Host.found_whole h hu hv
    exact ⟨_, hmem, rfl, rfl, Host.group?_matchOf u s v, honly⟩
  · obtain ⟨ns, hns, hmem⟩ := mem_nits_hostNames d
    refine ⟨ns, hns, (hmem _).trans ⟨?_, fun hallowed => ⟨s, hfound, hallowed, rfl⟩⟩⟩
    rintro ⟨name, -, hallowed, hname⟩
    rwa [← hostNit_injective hname]

/-- A name of three labels, the first of them with a hyphen. -/
theorem hosts_of_isName_three_labels :
    Host.IsName "www.Sub-7.xn--p1ai".toList ∧
    StandsIn "www.Sub-7.xn--p1ai".toList (.text (.ofText none "See www.Sub-7.xn--p1ai\there.".toList)) ∧
    "www.Sub-7.xn--p1ai".toList ∈ (addresses (.text (.ofText none "See www.Sub-7.xn--p1ai\there.".toList))).hosts := by
  have hname : Host.IsName "www.Sub-7.xn--p1ai".toList := by
    refine ⟨["www".toList, "Sub-7".toList], "xn--p1ai".toList, List.cons_ne_nil _ _, ?_, ?_, by decide⟩
    · simp only [List.forall_mem_cons, List.not_mem_nil, false_imp_iff, implies_true, and_true]
      exact ⟨⟨by decide, by decide, by decide, by decide⟩, ⟨by decide, by decide, by decide, by decide⟩⟩
    · exact .international (.inl rfl) (.inl rfl) (by decide) (by decide) (by decide)
  have hstands : StandsIn "www.Sub-7.xn--p1ai".toList
      (.text (.ofText none "See www.Sub-7.xn--p1ai\there.".toList)) := by
    refine .line (l := (1, "See www.Sub-7.xn--p1ai  here.".toList)) (by decide) (by decide) ?_
    exact ⟨"See ".toList, "  here.".toList, by decide, by rintro c ⟨⟩; decide, by rintro c ⟨⟩; decide⟩
  exact ⟨hname, hstands, (hosts_of_isName hname hstands).1.1⟩

end Rules
end DraftLint
