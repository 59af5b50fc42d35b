import DraftLint.Proofs.Address.Values
import DraftLint.Proofs.Rules.HostNames

/-!
# What is reported about addresses

The verdict on a candidate for an address depends on the address that it writes, and not on how it is written.  A
candidate that writes none is passed over.
-/

namespace DraftLint.Rules

open Address Finding Issue

/-- Every candidate is judged in one way, and it is reported for what it is judged to be.  There are no other nits, and
none comes twice. -/
structure ReportsAsJudged {κ : Type} (judged : Text → Option κ → Prop) (nit : κ → Text → Nit)
    (candidates : List Text) (ns : List Nit) : Prop where
  existsUnique : ∀ s ∈ candidates, ∃! o, judged s o
  mem_iff : ∀ s ∈ candidates, ∀ k, nit k s ∈ ns ↔ judged s (some k)
  about : ∀ n ∈ ns, ∃ s ∈ candidates, ∃ k, n = nit k s
  nodup : ns.Nodup

/-- The nit that an IPv4 address is none for documentation. -/
def ipv4Nit : IPv4.Concern → Text → Nit
  | .privateUse, s =>
    ⟨.warning, "IPV4_PRIVATE_NOT_EXAMPLE", "Found private IPv4 address " ++ Text.str s ++
      "; documentation addresses (RFC 5737) should be used instead.",
      some "https://www.rfc-editor.org/info/rfc5737", none⟩
  | .multicast, s =>
    ⟨.warning, "IPV4_MULTICAST_NOT_EXAMPLE", "Found multicast IPv4 address " ++ Text.str s ++
      "; documentation addresses (RFC 6676) should be used instead.",
      some "https://www.rfc-editor.org/info/rfc6676", none⟩
  | .generic, s =>
    ⟨.warning, "IPV4_GENERIC_NOT_EXAMPLE", "Found IPv4 address " ++ Text.str s ++
      ", which is not one reserved for documentation (RFC 5737).",
      some "https://www.rfc-editor.org/info/rfc5737", none⟩

/-- The nit that an IPv6 address is none for documentation. -/
def ipv6Nit : IPv6.Concern → Text → Nit
  | .uniqueLocal, s =>
    ⟨.warning, "IPV6_LOCAL_NOT_EXAMPLE", "Found unique local IPv6 address " ++ Text.str s ++
      "; documentation addresses (RFC 3849) should be used instead.",
      some "https://www.rfc-editor.org/info/rfc3849", none⟩
  | .linkLocal, s =>
    ⟨.warning, "IPV6_LINK_NOT_EXAMPLE", "Found link local IPv6 address " ++ Text.str s ++
      "; documentation addresses (RFC 3849) should be used instead.",
      some "https://www.rfc-editor.org/info/rfc3849", none⟩
  | .generic, s =>
    ⟨.warning, "IPV6_GENERIC_NOT_EXAMPLE", "Found IPv6 address " ++ Text.str s ++
      ", which is not one reserved for documentation (RFC 3849).",
      some "https://www.rfc-editor.org/info/rfc3849", none⟩

section Nits

variable {s s' : Text}

theorem ipv4Nit_inj {k k' : IPv4.Concern} (h : ipv4Nit k s = ipv4Nit k' s') : k = k' ∧ s = s' := by
  have hcode := congrArg Nit.code h
  have hmessage := congrArg Nit.message h
  have hk : k = k' := by cases k <;> cases k' <;> first | rfl | simp [ipv4Nit] at hcode
  subst hk
  cases k <;> exact ⟨rfl, eq_of_str_append hmessage⟩

theorem ipv6Nit_inj {k k' : IPv6.Concern} (h : ipv6Nit k s = ipv6Nit k' s') : k = k' ∧ s = s' := by
  have hcode := congrArg Nit.code h
  have hmessage := congrArg Nit.message h
  have hk : k = k' := by cases k <;> cases k' <;> first | rfl | simp [ipv6Nit] at hcode
  subst hk
  cases k <;> exact ⟨rfl, eq_of_str_append hmessage⟩

theorem nit?_ipv4 (k : IPv4.Concern) (s : Text) : nit? .normal (anywhere (ipv4 k s)) = some (ipv4Nit k s) := by
  cases k <;> rfl

theorem nit?_ipv6 (k : IPv6.Concern) (s : Text) : nit? .normal (anywhere (ipv6 k s)) = some (ipv6Nit k s) := by
  cases k <;> rfl

end Nits

section Candidates

variable {κ : Type} {judged : Text → Option κ → Prop} {judge : Text → Option κ} {nit : κ → Text → Nit}
  {finding? : Text → Option Finding} {candidates : List Text}

/-- The candidates are judged one by one, each of them once. -/
theorem reports_of_judge (hjudge : ∀ {s o}, judge s = o ↔ judged s o)
    (hnit : ∀ s, (finding? s).bind (nit? .normal) = (judge s).map fun k => nit k s)
    (hinj : ∀ {k k' s s'}, nit k s = nit k' s' → k = k' ∧ s = s') :
    ∃ ns, (Verdict.of ((Text.distinct candidates).filterMap finding?)).nits .normal = .ok ns ∧
      ReportsAsJudged judged nit candidates ns := by
  have hmem : ∀ n, n ∈ (Text.distinct candidates).filterMap (fun s => (judge s).map fun k => nit k s) ↔
      ∃ s ∈ candidates, ∃ k, judge s = some k ∧ nit k s = n := by
    intro n
    simp only [List.mem_filterMap, Text.mem_distinct, Option.map_eq_some_iff]
  rw [Verdict.nits_of, List.filterMap_filterMap]
  simp only [hnit]
  refine ⟨_, rfl, fun s _ => ⟨judge s, hjudge.mp rfl, fun o ho => (hjudge.mpr ho).symm⟩, fun s hs k => ?_, ?_, ?_⟩
  · rw [hmem, ← hjudge]
    constructor
    · rintro ⟨s', -, k', hk', h⟩
      obtain ⟨rfl, rfl⟩ := hinj h
      exact hk'
    · exact fun hk => ⟨s, hs, k, hk, rfl⟩
  · intro n hn
    obtain ⟨s, hs, k, -, rfl⟩ := (hmem n).mp hn
    exact ⟨s, hs, k, rfl⟩
  · refine (Text.nodup_distinct candidates).filterMap fun s s' n hn hn' => ?_
    obtain ⟨k, -, rfl⟩ := Option.map_eq_some_iff.mp hn
    obtain ⟨k', -, h⟩ := Option.map_eq_some_iff.mp hn'
    exact (hinj h).2.symm

end Candidates

/-- The addresses in a document are reported by their values. -/
theorem reports_addresses (d : Document) :
    (∃ ns, (ipv4Addresses d).nits .normal = .ok ns ∧ ReportsAsJudged IPv4.Judged ipv4Nit (addresses d).ipv4 ns) ∧
      ∃ ns, (ipv6Addresses d).nits .normal = .ok ns ∧ ReportsAsJudged IPv6.Judged ipv6Nit (addresses d).ipv6 ns := by
  constructor
  · refine reports_of_judge IPv4.judged_iff (fun s => ?_) ipv4Nit_inj
    cases hread : IPv4.read? s with
    | none => rfl
    | some x =>
      obtain ⟨a, b, c, d, h, rfl⟩ := IPv4.read?_eq_some_iff.mp hread
      have htext : (IPv4.ofOctets a b c d).text = s := (IPv4.text_ofOctets h.le).trans h.eq.symm
      simp only [Option.bind_eq_bind, Option.bind_some, htext]
      cases (IPv4.ofOctets a b c d).concern? with
      | none => rfl
      | some k => exact nit?_ipv4 k s
  · refine reports_of_judge IPv6.judged_iff (fun s => ?_) ipv6Nit_inj
    cases IPv6.read? s with
    | none => rfl
    | some x =>
      simp only [Option.bind_eq_bind, Option.bind_some]
      cases x.concern? with
      | none => rfl
      | some k => exact nit?_ipv6 k s

/-- A unique local address in two forms, the loopback address and an address for documentation with octets at its end. -/
example : ((ipv6Addresses (.text (.ofText none "FC00:0::a fc00::000A 0:0:0:0:0:0:0:1 2001:db8::192.0.2.1".toList))).nits
    .normal).toOption = some [ipv6Nit .uniqueLocal "FC00:0::a".toList, ipv6Nit .uniqueLocal "fc00::000A".toList] := by
  decide +kernel

end DraftLint.Rules
