import DraftLint.Text.Basic

/-!
# Sites

The pages that messages quote and the places where documents can be looked up.
-/

namespace DraftLint.Site

def authorsGuide : String := "https://authors.ietf.org"
def vocabulary : String := authorsGuide ++ "/en/rfcxml-vocabulary"
def requiredContent : String := authorsGuide ++ "/en/required-content"
def naming : String := authorsGuide ++ "/en/naming-your-internet-draft"
def licenseInfo : String := "https://trustee.ietf.org/license-info"
def rfcEditor : String := "https://www.rfc-editor.org"
def datatracker : String := "https://datatracker.ietf.org"

/-- A place in the description of the vocabulary. -/
def vocabularyAt (anchor : String) : String :=
  vocabulary ++ "#" ++ anchor

/-- A place in the list of required content. -/
def requiredAt (anchor : String) : String :=
  requiredContent ++ "#" ++ anchor

/-- The page about an RFC. -/
def rfcPage (number : Text) : String :=
  rfcEditor ++ "/info/rfc" ++ Text.str number

/-- The page about a document. -/
def documentPage (name : Text) : String :=
  datatracker ++ "/doc/" ++ Text.str name

/-- The metadata of an RFC. -/
def rfcData (number : Text) : String :=
  rfcEditor ++ "/rfc/rfc" ++ Text.str number ++ ".json"

/-- The metadata of a draft. -/
def draftData (name : Text) : String :=
  datatracker ++ "/doc/" ++ Text.str name ++ "/doc.json"

/-- The registry of downward references. -/
def downrefRegistry : String :=
  datatracker ++ "/doc/downref/"

end DraftLint.Site
