/-!
# Kinds of documents
-/

namespace DraftLint

/-- What sort of document it is. -/
inductive Kind where
  | draft
  | rfc
  | unknown
deriving DecidableEq, Repr

end DraftLint
