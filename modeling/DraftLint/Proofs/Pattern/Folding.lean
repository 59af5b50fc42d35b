import DraftLint.Proofs.Pattern.Scanning
import DraftLint.Proofs.Text.Case
import DraftLint.Proofs.Text.PrefixFree

/-!
# Reading with case ignored

Each character passes for one small letter when case is ignored.  A pattern that reads fixed texts then reads one of
finitely many, up to case, and if none of these begins with another, then what is read is told by what stands ahead.
-/

namespace DraftLint

namespace Text

section Characters

variable {c d x : Char}

/-- The small letter that a character passes for when case is ignored; any other character is its own. -/
def foldCase (c : Char) : Char :=
  if c.toNat == 0x17F then 's'
  else if c.toNat == 0x212A then 'k'
  else if c.toNat == 0x130 || c.toNat == 0x131 then 'i'
  else c.toLower

/-- A string in such small letters. -/
def small (s : String) : Text :=
  s.toList.map foldCase

/-- What passes for a character has the same small letter. -/
theorem foldCase_of_mem_caseForms (h : d ∈ CharSet.caseForms c) : foldCase d = foldCase c := by
  by_cases hlisted : c.toNat < 0x80 ∨ c.toNat ∈ [0x17F, 0x212A, 0x130, 0x131]
  · have hascii : ∀ c : Char, c.toNat < 0x80 → ∀ d ∈ CharSet.caseForms c, foldCase d = foldCase c :=
      forall_of_lt (by decide)
    have hspecial : ∀ c : Char, c.toNat ∈ [0x17F, 0x212A, 0x130, 0x131] →
        ∀ d ∈ CharSet.caseForms c, foldCase d = foldCase c :=
      forall_of_mem (by decide)
    exact hlisted.elim (hascii c · d h) (hspecial c · d h)
  · -- Any other character is its own small letter and its own capital.
    rw [not_or] at hlisted
    have hlower : c.toLower = c := (toLower_eq_or_capital c).resolve_right (by omega)
    have hupper : c.toUpper = c := (toUpper_eq_or_small c).resolve_right (by omega)
    have hforms : CharSet.caseForms c = [c, c, c] := by
      simp only [List.mem_cons, List.not_mem_nil, or_false, not_or] at hlisted
      simp [CharSet.caseForms, hlower, hupper, hlisted]
    rw [hforms] at h
    have hd : d = c := by simpa using h
    rw [hd]

theorem foldCase_of_only (h : (CharSet.only x).ignoreCase c) : foldCase c = foldCase x := by
  obtain ⟨d, hd, hdx⟩ := List.any_eq_true.mp h
  obtain rfl := beq_iff_eq.mp hdx
  exact (foldCase_of_mem_caseForms hd).symm

theorem foldCase_of_of {chars : String} (h : (CharSet.of chars).ignoreCase c) :
    foldCase c ∈ chars.toList.map foldCase := by
  obtain ⟨d, hd, hmem⟩ := List.any_eq_true.mp h
  exact List.mem_map.mpr ⟨d, List.contains_iff_mem.mp hmem, foldCase_of_mem_caseForms hd⟩

end Characters

end Text

namespace Pattern

open Text

variable {p q : Pattern} {ts us : List Text}

/-- Whatever the pattern reads with case ignored is, in small letters, one of the texts. -/
def Spells (p : Pattern) (ts : List Text) : Prop :=
  ∀ r t r', Reads p.ignoreCase r t r' → t.map foldCase ∈ ts

theorem Spells.seq (hp : p.Spells ts) (hq : q.Spells us) : (Pattern.seq p q).Spells (joined ts us) := by
  intro r t r' hread
  obtain ⟨u, v, s, rfl, hu, hv⟩ := hread.of_seq
  exact mem_joined.mpr ⟨_, hp r u s hu, _, hq s v r' hv, List.map_append⟩

theorem Spells.maybe (h : p.Spells ts) : (Pattern.maybe p).Spells ([] :: ts) := by
  intro r t r' hread
  rcases Reads.of_maybe (p := p.ignoreCase) hread with rfl | hread
  · exact List.mem_cons_self
  · exact List.mem_cons_of_mem _ (h r t r' hread)

theorem spells_literal (cs : List Char) : (literal cs).Spells [cs.map foldCase] := by
  induction cs with
  | nil =>
    intro r t r' hread
    cases hread
    exact List.mem_cons_self
  | cons c cs ih =>
    have hone : (Pattern.one (.only c)).Spells [[foldCase c]] := by
      intro r t r' hread
      obtain ⟨d, rfl, hd⟩ := Reads.of_one hread
      exact List.mem_singleton.mpr (congrArg (fun x => [x]) (foldCase_of_only hd))
    cases cs with
    | nil => exact hone
    | cons d cs => exact hone.seq ih

theorem spells_lit (s : String) : (lit s).Spells [small s] :=
  spells_literal s.toList

theorem spells_of (chars : String) : (Pattern.one (.of chars)).Spells (chars.toList.map fun c => [foldCase c]) := by
  intro r t r' hread
  obtain ⟨c, rfl, hc⟩ := Reads.of_one hread
  obtain ⟨d, hd, heq⟩ := List.mem_map.mp (foldCase_of_of hc)
  exact List.mem_map.mpr ⟨d, hd, congrArg (fun x => [x]) heq⟩

end Pattern
end DraftLint
