import DraftLint.Nit
import Mathlib.Data.List.Forall2
import Mathlib.Tactic.SplitIfs

/-!
# Grading in several modes

No mode takes a finding more seriously than the normal one.  The code of a nit and its severity in the
normal mode tell how it is graded in the others, so that nits can be graded anew without their findings.
-/

namespace DraftLint

namespace Severity

/-- Graver severities rank higher. -/
def rank : Severity → Nat
  | silent => 0
  | comment => 1
  | warning => 2
  | error => 3

instance : LE Severity :=
  ⟨fun a b => a.rank ≤ b.rank⟩

instance (a b : Severity) : Decidable (a ≤ b) :=
  inferInstanceAs (Decidable (a.rank ≤ b.rank))

theorem le_error (s : Severity) : s ≤ error := by
  cases s <;> decide

theorem eq_error_of_le {s : Severity} (h : error ≤ s) : s = error := by
  cases s <;> first | rfl | exact absurd h (by decide)

end Severity

namespace Gravity

/-- No mode is stricter than the normal one, and none but that for submission is silent. -/
structure Regular (g : Gravity) : Prop where
  normal_ne_silent : g.normal ≠ .silent
  forgiving_ne_silent : g.forgiving ≠ .silent
  forgiving_le : g.forgiving ≤ g.normal
  submission_le : g.submission ≤ g.normal

theorem regular_error {f s : Severity} (h : f ≠ .silent) : Regular ⟨.error, f, s⟩ :=
  ⟨by simp, h, f.le_error, s.le_error⟩

theorem regular_always {s : Severity} (h : s ≠ .silent) : Regular (always s) :=
  ⟨h, h, Nat.le_refl _, Nat.le_refl _⟩

theorem regular_unlessSubmitted {s : Severity} (h : s ≠ .silent) : Regular (unlessSubmitted s) :=
  ⟨h, h, Nat.le_refl _, Nat.zero_le _⟩

theorem Regular.inMode_le {g : Gravity} (h : g.Regular) (m : Mode) : g.inMode m ≤ g.normal := by
  cases m with
  | normal => exact Nat.le_refl _
  | forgiving => exact h.forgiving_le
  | submission => exact h.submission_le

end Gravity

namespace Issue

open Gravity Severity

/-- Codes of issues that are errors in every mode. -/
def errorCodes : List String :=
  ["INVALID_DOCUMENT_STRUCTURE", "MISSING_ABSTRACT_SECTION", "FILENAME_BAD_CHARACTERS",
    "FILENAME_EXT_MISMATCH", "FILENAME_TOO_LONG", "FILENAME_NOT_DOCNAME", "DOCNAME_MALFORMED",
    "MISSING_IPR_ATTRIBUTE", "DISALLOWED_IPR_ATTRIBUTE"]

/-- Codes of issues that are warnings in every mode. -/
def warningCodes : List String :=
  ["MISSING_DOC_DATE", "DOC_DATE_IN_PAST", "DOC_DATE_IN_FUTURE", "MISSING_DOC_CATEGORY",
    "INVALID_DOC_CATEGORY", "COPYRIGHT_YEAR_MISMATCH", "COMMENT_OUT_OF_CODE_BLOCK",
    "DEPRECATED_ELEMENT", "UNKNOWN_IPR_ATTRIBUTE", "WORKGROUP_NOT_GROUP"]

/-- Codes of issues that are comments, but silent for submission. -/
def commentCodes : List String :=
  ["TOO_MANY_AUTHORS", "UNDEFINED_STATUS", "UNKNOWN_STATUS", "BAD_KEYWORD_COMBINATION"]

/-- Codes of issues that are warnings, but silent for submission. -/
def milderCodes : List String :=
  ["EMPTY_AUTHOR_ORGANIZATION", "MISSING_AUTHOR_FULLNAME", "MISSING_AUTHOR_FULLNAME_WITH_ASCII",
    "INVALID_AUTHOR_ROLE", "UNDEFINED_STATE", "INVALID_STATE_FOR_DRAFT", "OBSOLETES_NOT_IN_ABSTRACT",
    "UPDATES_NOT_IN_ABSTRACT", "OBSOLETES_NOT_IN_RFC", "UPDATES_NOT_IN_RFC", "OBSOLETES_RFC_NOT_FOUND",
    "UPDATES_RFC_NOT_FOUND", "OBSOLETES_OBSOLETED_RFC", "UPDATES_OBSOLETED_RFC", "UPDATES_UPDATED_RFC",
    "MISSING_REQLEVEL_BOILERPLATE", "UNUSED_REQLEVEL_BOILERPLATE", "KEYWORD_NOT_IN_BOILERPLATE",
    "FQDN_NOT_EXAMPLE", "IPV4_PRIVATE_NOT_EXAMPLE", "IPV4_MULTICAST_NOT_EXAMPLE",
    "IPV4_GENERIC_NOT_EXAMPLE", "IPV6_LOCAL_NOT_EXAMPLE", "IPV6_LINK_NOT_EXAMPLE",
    "IPV6_GENERIC_NOT_EXAMPLE", "HYPHENATED_LINE_BREAKS", "CODE_BLOCK_MISSING_LICENSE",
    "CODE_BEGINS_IN_SOURCECODE", "CODE_BEGINS_IN_TEXT", "TEXT_LOOKS_LIKE_REF", "EXTERNAL_ENTITY"]

/-- The gravity that a code stands for, though there is one code that stands for two. -/
def gravityOfCode (code : String) : Gravity :=
  if code ∈ errorCodes then always error
  else if code ∈ warningCodes then always warning
  else if code ∈ commentCodes then unlessSubmitted comment
  else if code ∈ milderCodes then unlessSubmitted warning
  else if code = "SIMILAR_REQLEVEL_BOILERPLATE" then unlessSubmitted error
  else if code = "LINE_TOO_LONG" then ⟨error, warning, warning⟩
  else if code = "MISSING_XREF_TARGET" ∨ code = "XREF_TARGET_NOT_ANCHOR" then ⟨error, warning, error⟩
  else usual

theorem gravityOfCode_code (i : Issue) :
    gravityOfCode i.code = i.gravity ∨
      i.code = missingIanaInRfc.code ∧ i.gravity = missingIanaInRfc.gravity := by
  cases i with
  | missingIanaInRfc => exact Or.inr ⟨rfl, rfl⟩
  | missingPart p => left; cases p <;> rfl
  | emptyPart p => left; cases p <;> rfl
  | partWithoutContent p => left; cases p <;> rfl
  | unsuitedElement p tag => left; cases p <;> rfl
  | obsoleteReference k number successors => left; cases k <;> rfl
  | notInAbstract r number => left; cases r <;> rfl
  | onlyInAbstract r number => left; cases r <;> rfl
  | relatedNotFound r number => left; cases r <;> rfl
  | relatedObsolete r number successors => left; cases r <;> rfl
  | ipv4 concern address => left; cases concern <;> rfl
  | ipv6 concern address => left; cases concern <;> rfl
  | _ => exact Or.inl rfl

theorem regular_gravity (i : Issue) : i.gravity.Regular := by
  cases i with
  | missingPart p =>
    cases p with
    | abstract => exact regular_always (by decide)
    | _ => exact regular_error (by decide)
  | _ =>
    first
    | exact regular_always (by decide)
    | exact regular_unlessSubmitted (by decide)
    | exact regular_error (by decide)

/-- The gravity of an issue by its code and its severity in the normal mode. -/
def gravityOf (code : String) (normal : Severity) : Gravity :=
  if code = missingIanaInRfc.code ∧ normal = comment then missingIanaInRfc.gravity
  else gravityOfCode code

theorem gravityOf_eq (i : Issue) : gravityOf i.code i.gravity.normal = i.gravity := by
  unfold gravityOf
  rcases gravityOfCode_code i with h | ⟨hcode, hgravity⟩
  · split_ifs with hiana
    · rw [hiana.1] at h
      rw [← h] at hiana
      exact absurd hiana.2 (by decide)
    · exact h
  · rw [hcode, hgravity, if_pos ⟨rfl, rfl⟩]

/-- Issues with one code that are graded alike in some mode are so in all. -/
theorem gravity_eq_of_inMode {i j : Issue} {m : Mode} (hcode : i.code = j.code)
    (hmode : i.gravity.inMode m = j.gravity.inMode m) (hne : i.gravity.inMode m ≠ silent) :
    i.gravity = j.gravity := by
  have hiana : gravityOfCode missingIanaInRfc.code = usual := rfl
  rcases gravityOfCode_code i with hi | ⟨hi, hgi⟩
  · rcases gravityOfCode_code j with hj | ⟨hj, hgj⟩
    · rw [← hi, ← hj, hcode]
    · rw [hcode, hj, hiana] at hi
      rw [← hi, hgj] at hmode
      rw [← hi] at hne
      cases m with
      | submission => exact absurd rfl hne
      | _ => cases hmode
  · rcases gravityOfCode_code j with hj | ⟨hj, hgj⟩
    · rw [← hcode, hi, hiana] at hj
      rw [← hj, hgi] at hmode
      rw [hgi] at hne
      cases m with
      | submission => exact absurd rfl hne
      | _ => cases hmode
    · rw [hgi, hgj]

end Issue

namespace Nit

theorem graded?_eq_some_iff {m : Mode} {g : Gravity} {nit : Severity → Nit} {n : Nit} :
    graded? m g nit = some n ↔ g.inMode m ≠ .silent ∧ nit (g.inMode m) = n := by
  unfold graded?
  cases g.inMode m <;> simp

/-- The nit graded anew for a mode. -/
def regrade? (m : Mode) (n : Nit) : Option Nit :=
  graded? m (Issue.gravityOf n.code n.severity) fun s => { n with severity := s }

/-- One nit says the same as another, and takes it no more seriously. -/
structure Milder (n' n : Nit) : Prop where
  code : n'.code = n.code
  message : n'.message = n.message
  reference : n'.reference = n.reference
  places : n'.places = n.places
  severity : n'.severity ≤ n.severity

theorem Milder.isError {n' n : Nit} (h : Milder n' n) (he : n'.isError) : n.isError := by
  simp only [Nit.isError, beq_iff_eq] at he ⊢
  have hle := h.severity
  rw [he] at hle
  exact Severity.eq_error_of_le hle

/-- The nit is a finding as the normal mode reports it. -/
def IsNormal (n : Nit) : Prop :=
  ∃ f : Finding, f.nit? .normal = some n

section Normal

variable {m : Mode} {n n₁ n₂ n' : Nit}

theorem regrade?_of_nit? {f : Finding} (h : f.nit? .normal = some n) : n.regrade? m = f.nit? m := by
  obtain ⟨-, rfl⟩ := graded?_eq_some_iff.mp h
  have hg := Issue.gravityOf_eq f.issue
  unfold regrade?
  simp only [Gravity.inMode, hg]
  rfl

theorem IsNormal.milder (h : n.IsNormal) (hr : n.regrade? m = some n') : Milder n' n := by
  obtain ⟨f, hf⟩ := h
  rw [regrade?_of_nit? hf] at hr
  obtain ⟨-, rfl⟩ := graded?_eq_some_iff.mp hf
  obtain ⟨-, rfl⟩ := graded?_eq_some_iff.mp hr
  exact ⟨rfl, rfl, rfl, rfl, (Issue.regular_gravity f.issue).inMode_le m⟩

/-- Nits that are graded anew stay apart. -/
theorem IsNormal.injective (h₁ : n₁.IsNormal) (h₂ : n₂.IsNormal) (hr₁ : n₁.regrade? m = some n')
    (hr₂ : n₂.regrade? m = some n') : n₁ = n₂ := by
  obtain ⟨f₁, hf₁⟩ := h₁
  obtain ⟨f₂, hf₂⟩ := h₂
  rw [regrade?_of_nit? hf₁] at hr₁
  rw [regrade?_of_nit? hf₂] at hr₂
  obtain ⟨hne, rfl⟩ := graded?_eq_some_iff.mp hr₁
  obtain ⟨-, heq⟩ := graded?_eq_some_iff.mp hr₂
  obtain ⟨hmode, hcode, hmessage, hreference, hplaces⟩ := Nit.mk.inj heq
  have hg := Issue.gravity_eq_of_inMode hcode.symm hmode.symm hne
  obtain ⟨-, rfl⟩ := graded?_eq_some_iff.mp hf₁
  obtain ⟨-, rfl⟩ := graded?_eq_some_iff.mp hf₂
  rw [hg, hcode, hmessage, hreference, hplaces]

theorem IsNormal.forgiven (h : n.IsNormal) : ∃ n', n.regrade? .forgiving = some n' := by
  obtain ⟨f, hf⟩ := h
  rw [regrade?_of_nit? hf]
  exact ⟨_, graded?_eq_some_iff.mpr ⟨(Issue.regular_gravity f.issue).forgiving_ne_silent, rfl⟩⟩

end Normal

end Nit

namespace Finding

theorem exists_nit?_normal (f : Finding) : ∃ n, f.nit? .normal = some n :=
  ⟨_, Nit.graded?_eq_some_iff.mpr ⟨(Issue.regular_gravity f.issue).normal_ne_silent, rfl⟩⟩

theorem isNormal_of_mem {fs : List Finding} {n : Nit} (h : n ∈ fs.filterMap (nit? .normal)) :
    n.IsNormal := by
  obtain ⟨f, -, hf⟩ := List.mem_filterMap.mp h
  exact ⟨f, hf⟩

/-- The nits in any mode come from those in the normal one. -/
theorem filterMap_nit? (m : Mode) (fs : List Finding) :
    fs.filterMap (nit? m) = (fs.filterMap (nit? .normal)).filterMap (Nit.regrade? m) := by
  rw [List.filterMap_filterMap]
  apply List.filterMap_congr
  intro f _
  obtain ⟨n, hn⟩ := exists_nit?_normal f
  rw [hn]
  exact (Nit.regrade?_of_nit? hn).symm

end Finding
end DraftLint
