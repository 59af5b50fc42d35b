import DraftLint.Proofs.Plain.RightColumn

/-!
# Affiliation

An organization goes to the authors at the end of the list, up to the last one who has an organization already.  Since
those who wait for one always are the last, nobody is left out and nobody gets a second one, whatever lines the right
column has.
-/

namespace DraftLint.Plain

/-- The authors without an organization come after all others. -/
def WaitLast (authors : List Author) : Prop :=
  ∃ settled waiting, authors = settled ++ waiting ∧ (∀ a ∈ settled, a.organization.isSome) ∧
    ∀ a ∈ waiting, a.organization = none

/-- The name stays, and the organization if there is one. -/
structure Author.Keeps (a b : Author) : Prop where
  name : b.name = a.name
  organization : a.organization.isSome → b.organization = a.organization

/-- Everybody keeps the place, the name and the organization.  Others may come behind. -/
def Continues (authors later : List Author) : Prop :=
  ∀ (i : Nat) (a : Author), authors[i]? = some a → ∃ b, later[i]? = some b ∧ a.Keeps b

section Authors

variable {authors later last : List Author}

theorem Continues.refl (authors : List Author) : Continues authors authors :=
  fun _ a ha => ⟨a, ha, rfl, fun _ => rfl⟩

theorem Continues.trans (h : Continues authors later) (h' : Continues later last) : Continues authors last := by
  intro i a ha
  obtain ⟨b, hb, hab⟩ := h i a ha
  obtain ⟨c, hc, hbc⟩ := h' i b hb
  refine ⟨c, hc, hbc.name.trans hab.name, fun hsome => ?_⟩
  have horganization := hab.organization hsome
  rw [hbc.organization (horganization ▸ hsome), horganization]

theorem continues_append (authors more : List Author) : Continues authors (authors ++ more) := by
  intro i a ha
  obtain ⟨hi, -⟩ := List.getElem?_eq_some_iff.mp ha
  exact ⟨a, (List.getElem?_append_left hi).trans ha, rfl, fun _ => rfl⟩

theorem waitLast_concat (h : WaitLast authors) (name : Text) : WaitLast (authors ++ [⟨name, none⟩]) := by
  obtain ⟨settled, waiting, rfl, hsettled, hwaiting⟩ := h
  refine ⟨settled, waiting ++ [⟨name, none⟩], List.append_assoc .., hsettled, ?_⟩
  exact List.forall_mem_append.mpr ⟨hwaiting, List.forall_mem_singleton.mpr rfl⟩

section Affiliate

variable (h : WaitLast authors) (organization : Text)
include h

/-- Nobody is left without an organization. -/
theorem WaitLast.isSome_affiliate : ∀ a ∈ FrontPage.affiliate organization authors, a.organization.isSome := by
  obtain ⟨settled, waiting, rfl, hsettled, hwaiting⟩ := h
  rw [FrontPage.affiliate_append hsettled hwaiting]
  exact List.forall_mem_append.mpr ⟨hsettled, List.forall_mem_map.mpr fun _ _ => rfl⟩

theorem WaitLast.affiliate : WaitLast (FrontPage.affiliate organization authors) :=
  ⟨_, [], (List.append_nil _).symm, h.isSome_affiliate organization, List.forall_mem_nil _⟩

/-- Those who have an organization are left alone. -/
theorem WaitLast.continues_affiliate : Continues authors (FrontPage.affiliate organization authors) := by
  obtain ⟨settled, waiting, rfl, hsettled, hwaiting⟩ := h
  rw [FrontPage.affiliate_append hsettled hwaiting]
  intro i a ha
  by_cases hi : i < settled.length
  · rw [List.getElem?_append_left hi] at ha ⊢
    exact ⟨a, ha, rfl, fun _ => rfl⟩
  · rw [List.getElem?_append_right (Nat.not_lt.mp hi)] at ha ⊢
    rw [List.getElem?_map, ha]
    refine ⟨_, rfl, rfl, fun hsome => ?_⟩
    rw [hwaiting a (List.mem_of_getElem? ha)] at hsome
    cases hsome

end Affiliate

/-- A gap closes the affiliation of the authors so far, and only then a name is added. -/
theorem WaitLast.enter (h : WaitLast authors) (num : Nat) (right : Text) (line : Nat) :
    WaitLast (FrontPage.enter num right line authors) ∧ Continues authors (FrontPage.enter num right line authors) := by
  rw [FrontPage.enter]
  split_ifs with hname hgap hothers
  · exact ⟨waitLast_concat (h.affiliate _) right, (h.continues_affiliate _).trans (continues_append _ _)⟩
  · exact ⟨waitLast_concat h right, continues_append _ _⟩
  · exact ⟨h.affiliate right, h.continues_affiliate right⟩
  · exact ⟨waitLast_concat h right, continues_append _ _⟩

end Authors

/-- A line of the right column, or an organization for all who wait for one. -/
inductive Attribution where
  | line (num : Nat) (right : Text)
  | organization (name : Text)

namespace FrontPage

def ascribe (f : FrontPage) : Attribution → FrontPage
  | .line num right => f.readRight num right
  | .organization name => f.setOrganization name

/-- Attributions one after the other. -/
def ascribeAll (f : FrontPage) (as : List Attribution) : FrontPage :=
  as.foldl ascribe f

variable {f : FrontPage}

theorem waitLast_ascribe (h : WaitLast f.header.authors) (a : Attribution) :
    WaitLast (f.ascribe a).header.authors ∧ Continues f.header.authors (f.ascribe a).header.authors := by
  cases a with
  | organization name => exact ⟨h.affiliate name, h.continues_affiliate name⟩
  | line num right =>
    rw [ascribe]
    cases hdate : f.header.date with
    | some w =>
      rw [readRight_of_dated (by rw [hdate]; rfl)]
      exact ⟨h, .refl _⟩
    | none =>
      cases hw : Calendar.WrittenDate.read? right with
      | some w =>
        rw [readRight_date hdate hw]
        exact ⟨h, .refl _⟩
      | none =>
        rw [readRight_enter hdate hw]
        exact h.enter num right f.lastRightLine

theorem waitLast_ascribeAll (h : WaitLast f.header.authors) (as : List Attribution) :
    WaitLast (f.ascribeAll as).header.authors ∧ Continues f.header.authors (f.ascribeAll as).header.authors := by
  induction as generalizing f with
  | nil => exact ⟨h, .refl _⟩
  | cons a as ih =>
    obtain ⟨hlast, hcontinues⟩ := waitLast_ascribe h a
    obtain ⟨hlast', hcontinues'⟩ := ih hlast
    exact ⟨hlast', hcontinues.trans hcontinues'⟩

/-- The authors after any attributions, and after any more. -/
theorem authors_ascribeAll (as : List Attribution) :
    let f := Scan.initial.page.ascribeAll as
    WaitLast f.header.authors ∧
      (∀ name, ∀ a ∈ (f.setOrganization name).header.authors, a.organization.isSome) ∧
      (∀ more, Continues f.header.authors (f.ascribeAll more).header.authors) ∧
      (f.header.date.isSome → ∀ num right, f.readRight num right = f) := by
  intro f
  have hstart : WaitLast Scan.initial.page.header.authors :=
    ⟨[], [], rfl, List.forall_mem_nil _, List.forall_mem_nil _⟩
  have hlast : WaitLast f.header.authors := (waitLast_ascribeAll hstart as).1
  exact ⟨hlast, hlast.isSome_affiliate, fun more => (waitLast_ascribeAll hlast more).2,
    fun hdated num right => readRight_of_dated hdated num right⟩

end FrontPage
end DraftLint.Plain
