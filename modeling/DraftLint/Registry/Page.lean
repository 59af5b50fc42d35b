import DraftLint.Markup.Reader
import DraftLint.Registry

/-!
# The page of the registry

The labels that the links on the page lead to.  A page that is no well-formed document is searched for
the starts of links.
-/

namespace DraftLint.Registry

open Pattern

/-- A part of a page that is not shown. -/
def hidden : Pattern :=
  all [lit "<!--", few (one .any), lit "-->"]

/-- The start of a link; the groups are its goal, in double or in single quotation marks. -/
def linkStart : Pattern :=
  ignoreCase <| all [lit "<a", ahead blank, few (one (.not (.of "<>"))), blank, lit "href",
    anyBlanks, lit "=", anyBlanks,
    oneOf [all [lit "\"", group 1 (many (one (CharSet.only '"').not)), lit "\""],
      all [lit "'", group 2 (many (one (CharSet.only '\'').not)), lit "'"]]]

/-- The goal of a link, as a page gives it. -/
def resolved (t : Text) : Text :=
  (Markup.Declarations.none.value? t).getD t

/-- The goals of the links on a page. -/
def goals (page : Text) : List Text :=
  match Markup.Element.ofText? page with
  | some root => (root.allNamed "a").filterMap (·.attribute? "href")
  | none => (linkStart.scan (hidden.substitute [] page)).filterMap fun m =>
      (m.group? 1 <|> m.group? 2).map resolved

/-- The labels of the documents that the page links to, each once and in rising order. -/
def labels (page : Text) : Except Failure (List Text) := do
  return Text.sortedSet (← (goals page).filterMap ofLink? |>.mapM id)

end DraftLint.Registry
