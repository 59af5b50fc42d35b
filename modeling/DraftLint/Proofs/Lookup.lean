import DraftLint.Lookup
import DraftLint.Proofs.Attempts
import DraftLint.Proofs.Inquiry
import DraftLint.Proofs.Registry
import Mathlib.Tactic.SplitIfs

/-!
# What the sites tell

A look-up succeeds exactly if the page has the expected form where it says anything.  A list of RFCs must be
something that has items, and the registry must be readable.  What is said of a draft is taken as it stands.
-/

namespace DraftLint

namespace Json

/-- The value has items: those of a list, the characters of a text, or the names of fields. -/
def hasItems : Json → Bool
  | .array _ | .text _ | .object _ => true
  | _ => false

def isText : Json → Bool
  | .text _ => true
  | _ => false

end Json

namespace Lookup

/-- The page that is asked for about an RFC with this number. -/
def pageOf? (number : Text) : Option String :=
  (Text.integer? number).map rfcPage

/-- What the page about an RFC replies. -/
def about (w : World) (number : Text) : Reply :=
  (pageOf? number).bind w

/-- What a page says in a field, if it is a record and says anything there. -/
def said? (name : String) (r : Reply) : Option Json :=
  (record? r).bind (field? name)

/-- The lists of RFCs on a page have items. -/
structure Listable (r : Reply) : Prop where
  obsoletedBy : ∀ v ∈ said? "obsoleted_by" r, v.hasItems
  updatedBy : ∀ v ∈ said? "updated_by" r, v.hasItems

section Pages

variable {r : Reply}

theorem exists_names_iff {v : Json} : (∃ ts, names v = .ok ts) ↔ (v.isVoid = false → v.hasItems) := by
  unfold names
  cases hvoid : v.isVoid with
  | true => simp [pure, Except.pure]
  | false => cases v <;> simp [items, Json.hasItems, bind, Except.bind, pure, Except.pure]

theorem exists_namesIn_iff {name : String} {j : Json} :
    (∃ ts, namesIn name j = .ok ts) ↔ ∀ v ∈ field? name j, v.hasItems := by
  rw [namesIn, exists_names_iff, field?]
  cases j.get? name with
  | none => simp [Json.isVoid]
  | some v => cases hvoid : v.isVoid <;> simp [hvoid]

/-- The page about an RFC makes sense exactly if its lists have items. -/
theorem Rfc.exists_ofReply_iff : (∃ found, Rfc.ofReply r = .ok found) ↔ Listable r := by
  have hlistable : Listable r ↔ (∀ v ∈ said? "obsoleted_by" r, v.hasItems) ∧
      ∀ v ∈ said? "updated_by" r, v.hasItems :=
    ⟨fun h => ⟨h.1, h.2⟩, fun h => ⟨h.1, h.2⟩⟩
  rw [hlistable, Rfc.ofReply, said?, said?]
  cases record? r with
  | none => simp
  | some j =>
    simp only [Option.bind_some, ← exists_namesIn_iff]
    cases namesIn "obsoleted_by" j <;> cases namesIn "updated_by" j <;>
      simp [bind, Except.bind, pure, Except.pure]

theorem Rfc.status_ofReply {found : Option Rfc} (h : Rfc.ofReply r = .ok found) :
    found.bind (·.status) = said? "status" r := by
  rw [Rfc.ofReply, said?] at *
  cases hrecord : record? r with
  | none =>
    rw [hrecord] at h
    obtain rfl := Except.ok.inj h
    rfl
  | some j =>
    rw [hrecord] at h
    cases hobsoleted : namesIn "obsoleted_by" j with
    | error e => simp [hobsoleted, bind, Except.bind] at h
    | ok obsoletedBy =>
      cases hupdated : namesIn "updated_by" j with
      | error e => simp [hobsoleted, hupdated, bind, Except.bind] at h
      | ok updatedBy =>
        simp only [hobsoleted, hupdated, bind, Except.bind, pure, Except.pure, Except.ok.injEq] at h
        subst h
        rfl

theorem Draft.state_ofReply (r : Reply) : (Draft.ofReply r).bind (·.state) = said? "state" r := by
  rw [Draft.ofReply, said?]
  cases record? r <;> rfl

end Pages

section Answers

variable {w : World}

/-- What comes of looking up one RFC. -/
def told (w : World) (number : Text) : Except Failure (Option Rfc) :=
  if (Text.integer? number).isSome then Rfc.ofReply (about w number) else .error .notANumber

theorem told_of_isNumeral {number : Text} (h : number.IsNumeral) :
    told w number = Rfc.ofReply (about w number) := by
  obtain ⟨n, hn, -⟩ := h.integer?
  rw [told, hn]
  rfl

theorem ofReply_of_told {number : Text} {found : Option Rfc} (h : told w number = .ok found) :
    Rfc.ofReply (about w number) = .ok found := by
  rw [told] at h
  split_ifs at h
  exact h

theorem exists_told_iff {number : Text} (h : number.IsNumeral) :
    (∃ found, told w number = .ok found) ↔ Listable (about w number) := by
  rw [told_of_isNumeral h, Rfc.exists_ofReply_iff]

theorem answer_rfcs (w : World) (numbers : List Text) :
    (rfcs numbers).answer w =
      if numbers.all fun n => (Text.integer? n).isSome then
        ((numbers.filterMap pageOf?).map w).mapM Rfc.ofReply
      else .error .notANumber := by
  simp only [rfcs, Inquiry.answer_then, Inquiry.answer_pages, List.filterMap_map, List.all_map]
  rfl

theorem mapM_ofReply {numbers : List Text} (h : ∀ n ∈ numbers, (Text.integer? n).isSome) :
    ((numbers.filterMap pageOf?).map w).mapM Rfc.ofReply = numbers.mapM (told w) := by
  induction numbers with
  | nil => rfl
  | cons n numbers ih =>
    have hsome := h n (List.mem_cons_self ..)
    obtain ⟨page, hpage⟩ : ∃ page, pageOf? n = some page := by
      rw [← Option.isSome_iff_exists, pageOf?, Option.isSome_map]
      exact hsome
    have hreply : Rfc.ofReply (w page) = told w n := by
      rw [told, if_pos hsome, about, hpage, Option.bind_some]
    rw [List.filterMap_cons_some hpage, List.map_cons, List.mapM_cons, List.mapM_cons, hreply,
      ih fun x hx => h x (List.mem_cons_of_mem _ hx)]

/-- RFCs are looked up together exactly if each of them can be. -/
theorem answer_rfcs_eq_ok_iff {numbers : List Text} {found : List (Option Rfc)} :
    (rfcs numbers).answer w = .ok found ↔ numbers.mapM (told w) = .ok found := by
  rw [answer_rfcs]
  split_ifs with hall
  · rw [mapM_ofReply (List.all_eq_true.mp hall)]
  · constructor
    · intro h
      cases h
    · intro h
      refine absurd (List.all_eq_true.mpr ?_) hall
      intro n hn
      obtain ⟨r, hr⟩ := Attempts.exists_mapM_eq_ok_iff.mp ⟨found, h⟩ n hn
      rw [told] at hr
      split_ifs at hr with hsome
      exact hsome

theorem exists_answer_rfcs_iff {numbers : List Text} (h : ∀ n ∈ numbers, n.IsNumeral) :
    (∃ found, (rfcs numbers).answer w = .ok found) ↔ ∀ n ∈ numbers, Listable (about w n) := by
  simp only [answer_rfcs_eq_ok_iff, Attempts.exists_mapM_eq_ok_iff]
  exact forall₂_congr fun n hn => exists_told_iff (h n hn)

theorem answer_rfc (w : World) (number : Text) : (rfc number).answer w = told w number := by
  have hanswer : (rfc number).answer w = ((rfcs [number]).answer w).map fun rs => rs.head?.join := by
    simp only [rfc, Inquiry.answer_then]
    rfl
  rw [hanswer, answer_rfcs]
  split_ifs with hall
  · rw [mapM_ofReply (List.all_eq_true.mp hall), List.mapM_cons]
    cases told w number <;> rfl
  · rw [told, if_neg (by simpa using hall)]
    rfl

theorem answer_drafts (w : World) (names : List Text) :
    (drafts names).answer w = names.map fun n => Draft.ofReply (w (Site.draftData n)) := by
  simp only [drafts, Inquiry.answer_then, Inquiry.answer_pages, List.map_map]
  rfl

theorem answer_registry (w : World) :
    registry.answer w = match w Site.downrefRegistry with
      | none => .ok none
      | some page => (Registry.labels page).map some := by
  simp only [registry, Inquiry.answer_then, Inquiry.page, Inquiry.answer]
  cases w Site.downrefRegistry <;> rfl

theorem answer_downrefs (w : World) (labels : List Text) :
    (downrefs labels).answer w = match registry.answer w with
      | .error e => .error e
      | .ok none => .ok []
      | .ok (some []) => .ok []
      | .ok (some known) => labels.filterM fun l => do return known.contains (← Registry.normalize l) := by
  simp only [downrefs, Inquiry.answer_then]
  rcases registry.answer w with e | _ | _ | _ <;> rfl

/-- Labels that can be normalized are found if what they are normalized to is in the registry. -/
theorem exists_answer_downrefs {labels known : List Text} {page : Text}
    (h : ∀ l ∈ labels, ∃ label, Registry.normalize l = .ok label) (hpage : w Site.downrefRegistry = some page)
    (hknown : Registry.labels page = .ok known) :
    ∃ found, (downrefs labels).answer w = .ok found ∧
      ∀ l, l ∈ found ↔ l ∈ labels ∧ ∃ normal ∈ known, Registry.normalize l = .ok normal := by
  have hregistry : registry.answer w = .ok (some known) := by
    rw [answer_registry, hpage]
    simp only [hknown, Except.map]
  rw [answer_downrefs, hregistry]
  cases known with
  | nil => exact ⟨[], rfl, fun l => by simp⟩
  | cons k known =>
    have hdecided : ∀ l ∈ labels, ∃ b,
        (do return (k :: known).contains (← Registry.normalize l) : Except Failure Bool) = .ok b := by
      intro l hl
      obtain ⟨normal, hnormal⟩ := h l hl
      rw [hnormal]
      exact ⟨_, rfl⟩
    obtain ⟨found, hfound, hmem⟩ := Attempts.exists_filterM_eq_ok hdecided
    refine ⟨found, hfound, fun l => ?_⟩
    rw [hmem]
    refine and_congr_right fun hl => ?_
    obtain ⟨normal, hnormal⟩ := h l hl
    simp [hnormal, bind, Except.bind, pure, Except.pure]

/-- Labels that can be normalized are looked for successfully exactly if the registry is readable. -/
theorem exists_answer_downrefs_iff {labels : List Text}
    (h : ∀ l ∈ labels, ∃ label, Registry.normalize l = .ok label) :
    (∃ found, (downrefs labels).answer w = .ok found) ↔
      ∀ page ∈ w Site.downrefRegistry, Registry.Readable page := by
  cases hpage : w Site.downrefRegistry with
  | none =>
    rw [answer_downrefs, answer_registry, hpage]
    simp
  | some page =>
    simp only [Option.mem_def, Option.some.injEq, forall_eq', ← Registry.exists_labels_iff]
    cases hlabels : Registry.labels page with
    | error e =>
      rw [answer_downrefs, answer_registry, hpage]
      simp [hlabels, Except.map]
    | ok known =>
      obtain ⟨found, hfound, -⟩ := exists_answer_downrefs h hpage hlabels
      exact iff_of_true ⟨found, hfound⟩ ⟨known, rfl⟩

end Answers

end Lookup
end DraftLint
