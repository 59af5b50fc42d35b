import DraftLint.Proofs.Markup.Spelling
import DraftLint.Proofs.Plain.Labels
import DraftLint.Proofs.Registry.Links
import DraftLint.Proofs.Rules.Labels

/-!
# Downward references

A reference and a link of the registry meet at the label to which both are normalized.  However a document
spells a reference, and whatever else stands in the only link of the page, the reference is reported exactly if
the two name the same draft, or RFCs of the same number.
-/

namespace DraftLint

namespace Finding

end Finding

namespace Rules

open Citation Registry

/-- The references list the RFC with this numeral.  The last text is the label under which it is reported: in
plain text it keeps the numeral, in markup it has the plain one. -/
inductive CitesRfc : Document → Text → Text → Prop
  | text {fileName : Option Text} {t number : Text}
    (h : Plain.CitedWhere (Plain.Document.ofText fileName t).lines
      (Plain.Document.ofText fileName t).ReadAsReferences number) :
    CitesRfc (.text (.ofText fileName t)) number ("RFC ".toList ++ number)
  | markup {m : Markup.Document} {entry : Markup.Element × ReferenceKind} {number : Text} {n : Int}
    (hentry : entry ∈ m.root.entries) (h : entry.1.rfcNumeral? = some number)
    (hn : Text.integer? number = some n) : CitesRfc (.markup m) number (Registry.ofRfc n)

/-- In the normal mode the rule reports the label, if the sites may be asked. -/
def Reports (s : Standard) (d : Document) (w : World) (label : Text) : Prop :=
  ∃ ns, ((Rule.verdict s (Review.asksSites .normal false) d .downrefs).answer w).nits .normal = .ok ns ∧
    ∃ nit ∈ ns, (Finding.anywhere (.inDownrefRegistry label)).nit? .normal = some nit

section Labels

variable {d : Document} {labels : List Text} {x label number : Text} {n : Int}

/-- Under whatever label it is reported, an RFC is known by its number. -/
theorem CitesRfc.normalize_eq (h : CitesRfc d number label) (hnumber : number.IsNumeral)
    (hn : Text.integer? number = some n) : normalize label = .ok (Registry.ofRfc n) := by
  cases h with
  | text h => rw [normalize_label hnumber.ne_nil hnumber.isDecimal, ofNumeral, hn]
  | markup _ _ hn' =>
    obtain rfl := Option.some.inj (hn'.symm.trans hn)
    obtain ⟨k, hk, hplain⟩ := exists_ofRfc_of_isNumeral hnumber
    rw [ofNumeral, hn'] at hk
    obtain rfl := ofRfc_injective (Except.ok.inj hk)
    exact normalize_ofRfc hplain

end Labels

section Reports

variable {s : Standard} {d : Document} {w : World} {page label normal : Text} {labels known : List Text}

end Reports

section Examples

/-- A reference with series information, each by its name and its value. -/
def reference (anchor : Text) (infos : List (Text × Text)) : Markup.Node :=
  .element ⟨"reference".toList, 1, [("anchor".toList, anchor)]⟩ <| infos.map fun info =>
    .element ⟨"seriesInfo".toList, 1, [("name".toList, info.1), ("value".toList, info.2)]⟩ []

end Examples

end Rules
end DraftLint
