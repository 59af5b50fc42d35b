import DraftLint.Proofs.Pattern.Preference
import DraftLint.Proofs.Spelling
import DraftLint.Proofs.Text.Distinct

/-!
# Links to documents

A link that ends in the name of a document gives this name, whatever stands before it, and with or without a
revision and a slash after it.
-/

namespace DraftLint.Registry

open Pattern Citation

variable {fuel : Nat} {u v w slash : Text} {captures : List Capture}

section Ending

/-- What may follow a name: a version, a slash, and the end. -/
def ending : Pattern :=
  .seq (.maybe (.seq (.one (CharSet.only '-').ignoreCase)
      (.seq (.one CharSet.decimal.ignoreCase) (.one CharSet.decimal.ignoreCase))))
    (.seq (.maybe (.one (CharSet.only '/').ignoreCase)) (.anchor .lineEnd))

end Ending

section Name

/-- The pattern takes this name if what follows succeeds behind it and nowhere before. -/
def Takes (name rest : Text) : Prop :=
  ∀ {α : Type} {fuel : Nat} (u : Text) (next : Reach → Option α) (a : α), name.length ≤ fuel →
    next ⟨.amid (u ++ name) rest, []⟩ = some a →
    (∀ y z, name = y ++ z → z ≠ [] → next ⟨.amid (u ++ y) (z ++ rest), []⟩ = none) →
    documentName.run fuel ⟨.amid u (name ++ rest), []⟩ next = some a

end Name

section Link

variable {p name : Text}

end Link

section Page

variable {page href name label : Text}

end Page

end DraftLint.Registry
