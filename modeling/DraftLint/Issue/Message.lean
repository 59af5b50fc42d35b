import DraftLint.Issue.Basic
import DraftLint.Text.Case
import DraftLint.Site

/-!
# Wording of issues

The message about an issue, and the page that explains what is expected.
-/

namespace DraftLint

/-- The most characters on a line of plain text. -/
def maxLineLength : Nat := 72

/-- The most authors that a front page should list. -/
def maxAuthors : Nat := 5

/-- The most characters in the name of a file. -/
def maxFileNameLength : Nat := 50

namespace Format

def name : Format → String
  | text => "txt"
  | markup => "xml"

end Format

namespace Issue

open Text (str)

/-- What is added to a noun for a number of things. -/
def pluralSuffix (n : Int) : String :=
  if n = 1 then "" else "s"

/-- A number with a noun for so many things. -/
def counted (n : Nat) (noun : String) : String :=
  toString n ++ " " ++ noun ++ pluralSuffix n

/-- Texts with commas between. -/
def listed (ts : List Text) : String :=
  ", ".intercalate (ts.map str)

/-- The name of a part within a sentence. -/
def label : Part → String
  | .header => "header"
  | .abstract => "abstract"
  | .introduction => "introduction"
  | .security => "security considerations"
  | .authors => "author's address"
  | .references => "references"
  | .iana => "IANA considerations"

/-- The place where a part is described. -/
def anchor : Part → String
  | .header => "first-page-header"
  | .abstract => "abstract"
  | .introduction => "introduction"
  | .security => "security-considerations"
  | .authors => "authors-addresses"
  | .references => "references"
  | .iana => "iana-considerations"

/-- A reference by the kind of section that lists it. -/
def referenceTo (kind : ReferenceKind) (number : Text) : String :=
  let rfc := "RFC " ++ str number
  match kind with
  | .normative => rfc
  | .informative => "The informative reference " ++ rfc
  | .unclassified => "The unclassified reference " ++ rfc

/-- The same, as the subject of a sentence about a replaced document. -/
def replacedReference (kind : ReferenceKind) (number : Text) : String :=
  match kind with
  | .normative => "The referenced document RFC " ++ str number
  | _ => referenceTo kind number

def verb : Relation → String
  | .obsoletes => "obsoletes"
  | .updates => "updates"

/-- What a document says about a document that it changes. -/
def statement (relation : Relation) (number : Text) : String :=
  verb relation ++ " RFC " ++ str number

/-- The elements that an abstract may hold. -/
def abstractChildren : List String := ["dl", "ol", "t", "ul"]

/-- The titles that a references section may have. -/
def referencesTitles : List String :=
  ["References", "Normative References", "Informative References"]

def message : Issue → String
  | documentStructure =>
    "The document header or title could not be found; the document structure is invalid."
  | missingPart p => "The " ++ label p ++ " section is missing."
  | missingIanaInRfc => "The " ++ label .iana ++ " section is missing."
  | noAuthors => "The document has no <author> elements."
  | emptyPart p => "The " ++ label p ++ " section is empty."
  | partWithoutContent .abstract => "The abstract section must contain at least one paragraph."
  | partWithoutContent p => "The " ++ label p ++ " section has no content."
  | unsuitedElement .abstract tag =>
    "The abstract section may only contain <" ++ ">, <".intercalate abstractChildren ++
      "> elements, found <" ++ str tag ++ ">."
  | unsuitedElement p tag =>
    "The " ++ label p ++ " section contains an invalid element: <" ++ str tag ++ ">."
  | abstractWithReferences n =>
    "The abstract section should not contain references (found " ++ counted n "<xref> element" ++ ")."
  | manyAuthors n .text =>
    s!"The document lists {n} authors on the front page; there should be no more than {maxAuthors}."
  | manyAuthors n .markup =>
    s!"The document lists {n} authors; there should be no more than {maxAuthors}."
  | noOrganization a => str a ++ " has no organization."
  | noFullName a => str a ++ " has no fullname attribute."
  | onlyAsciiName a => str a ++ " has ascii name attributes, but no fullname attribute."
  | authorRole a r =>
    str a ++ " has an invalid role: '" ++ str r ++ "'. The only allowed value is 'editor'."
  | untitledReferences => "A references section has no title."
  | referencesTitle t =>
    "Invalid references section title '" ++ str t ++ "'. Expected one of: " ++
      ", ".intercalate referencesTitles ++ "."
  | uncategorizedReferences n =>
    "Found " ++ counted n "reference" ++
      " which are not in a Normative or Informative References section."
  | inDownrefRegistry l => "Draft " ++ str l ++ " is listed in the Downref Registry."
  | undefinedStatus kind number =>
    referenceTo kind number ++ " does not have a defined status or could not be fetched."
  | unrecognizedStatus number status =>
    "RFC " ++ str number ++ " has an unrecognized status: \"" ++ str status ++ "\"."
  | obsoleteReference kind number successors =>
    replacedReference kind number ++ " is obsolete and has been replaced by: " ++
      listed successors ++ "."
  | undefinedState draft =>
    "The draft reference " ++ str draft ++
      " does not have a defined state or could not be fetched."
  | publishedDraft draft =>
    "The draft reference " ++ str draft ++
      " is already published as an RFC and should not be referenced as a draft."
  | missingDate => "The document date could not be determined."
  | dateInPast n => s!"The document date is {n} days in the past. Is this intentional?"
  | dateInFuture n => s!"The document date is {n} days in the future. Is this intentional?"
  | missingCategory .text => "The document category is missing from the first page header."
  | missingCategory .markup => "The document category attribute is missing on the <rfc> element."
  | unknownCategory c => "The document category has an invalid value: \"" ++ str c ++ "\"."
  | unknownCategoryCode =>
    "The document category has an invalid value. Allowed values are std, bcp, info, exp and historic."
  | notInAbstract r n =>
    "The document states that it " ++ statement r n ++
      " but doesn't explicitly mention it in the <abstract> section."
  | onlyInAbstract r n =>
    "The document abstract states that it " ++ statement r n ++
      " but it's not mentioned in the " ++ verb r ++ " <rfc> attribute."
  | relatedNotFound r n =>
    "The <rfc> element states that it " ++ statement r n ++
      " but no matching RFC could be found on rfc-editor.org."
  | relatedObsolete r n successors =>
    "The <rfc> element states that it " ++ statement r n ++ " but it's already obsoleted by " ++
      listed successors ++ "."
  | alreadyUpdated n updaters =>
    "The <rfc> element states that it " ++ statement .updates n ++ " but it's already updated by " ++
      listed updaters ++ "."
  | copyrightYear found expected =>
    s!"The copyright year {found} does not match the expected year {expected}."
  | dateYear found expected =>
    "The document date year " ++ str found ++ " does not match the expected copyright year " ++
      toString expected ++ "."
  | fileNameCharacters base =>
    "The filename '" ++ str base ++
      "' contains characters other than lowercase letters, digits and dashes."
  | fileNameExtension ext format =>
    "The filename extension '." ++ str ext ++ "' doesn't match the document format (" ++
      format.name ++ ")."
  | fileNameLength name =>
    "The filename '" ++ str name ++ "' is " ++ toString name.length ++
      s!" characters long; at most {maxFileNameLength} are allowed."
  | fileNameOther base name =>
    "The filename '" ++ str base ++ "' doesn't match the document name '" ++ str name ++ "'."
  | malformedDraftName base =>
    "The document name '" ++ str base ++ "' is malformed; expected 'draft-', the individual or " ++
      "stream, and a distinguishing name separated by single dashes."
  | requirementsUnexplained =>
    "The document uses RFC 2119 keywords, but has neither the RFC 2119 boilerplate nor a " ++
      "reference to RFC 2119."
  | requirementsWithoutParagraph =>
    "The document uses RFC 2119 keywords and references RFC 2119, but has no RFC 2119 boilerplate."
  | paragraphWithoutRequirements =>
    "The document has RFC 2119 boilerplate, but doesn't use any RFC 2119 keywords."
  | paragraphMisquoted =>
    "The document contains text similar to the RFC 2119 boilerplate, but it doesn't match the " ++
      "boilerplate."
  | badCombinations found =>
    "Found " ++ counted found.length "badly formed combination" ++ " of RFC 2119 keywords: " ++
      listed (Text.sortedSet found) ++ "."
  | keywordsNotListed ks =>
    "The document uses " ++ ", ".intercalate (ks.map fun k => "\"" ++ str k ++ "\"") ++
      ", which " ++ (if ks.length = 1 then "is" else "are") ++
      " not listed in the RFC 2119 boilerplate."
  | hostName name =>
    "Found domain name '" ++ str name ++
      "', which is not one reserved for documentation (RFC 2606, RFC 6761)."
  | ipv4 .privateUse a =>
    "Found private IPv4 address " ++ str a ++
      "; documentation addresses (RFC 5737) should be used instead."
  | ipv4 .multicast a =>
    "Found multicast IPv4 address " ++ str a ++
      "; documentation addresses (RFC 6676) should be used instead."
  | ipv4 .generic a =>
    "Found IPv4 address " ++ str a ++ ", which is not one reserved for documentation (RFC 5737)."
  | ipv6 .uniqueLocal a =>
    "Found unique local IPv6 address " ++ str a ++
      "; documentation addresses (RFC 3849) should be used instead."
  | ipv6 .linkLocal a =>
    "Found link local IPv6 address " ++ str a ++
      "; documentation addresses (RFC 3849) should be used instead."
  | ipv6 .generic a =>
    "Found IPv6 address " ++ str a ++ ", which is not one reserved for documentation (RFC 3849)."
  | longLines count longest length =>
    "Found " ++ counted count "line" ++
      s!" longer than {maxLineLength} characters; the longest is line {longest}, with {length} characters."
  | justifiedLines n =>
    "The document seems to contain " ++ counted n "line" ++
      " with intra-line extra spacing; the text should be ragged-right, not justified."
  | hyphenatedLines n =>
    "Found " ++ counted n "line" ++
      " ending with a hyphenated word break; words should not be hyphenated across lines."
  | codeComments =>
    "Found something which looks like a code comment -- if you have code sections in the document, " ++
      "please surround them with '<CODE BEGINS>' and '<CODE ENDS>' lines."
  | codeWithoutLicense =>
    "A code-block is detected, but the document does not contain a license declaration."
  | deprecatedElements n tags =>
    "Found " ++ counted n "deprecated xml element" ++ ": " ++
      ", ".intercalate ((Text.sortedSet tags).map fun t => "<" ++ str t ++ ">")
  | missingIpr => "Expected an ipr attribute on <rfc>, but found none."
  | unknownIpr v => "Found an unrecognized ipr attribute on <rfc>: " ++ str v
  | disallowedIpr v => "Found a disallowed ipr attribute for stream IETF: " ++ str v
  | workgroupName t =>
    "Expected a <workgroup> entry ending in 'Group', but found '" ++ str t ++ "'"
  | codeMarkersInSource n =>
    "Found " ++ counted n "instance" ++ " of \"<CODE BEGINS>\" in <sourcecode> which will cause " ++
      "duplicate markers in the output"
  | codeMarkersInText n =>
    "Found " ++ counted n "instance" ++ " of \"<CODE BEGINS>\" in text.  If this is the start of a " ++
      "code block, it should be put in a <sourcecode> element"
  | citationLookalikes n texts =>
    "Found " ++ counted n "instance" ++
      " of text that looks like a citation and maybe should use <xref> instead: " ++
      listed (Text.sortedSet texts)
  | xrefWithoutTarget n => "Found " ++ counted n "instance" ++ " of <xref> with no target"
  | xrefTargets n targets =>
    "Found " ++ counted n "instance" ++ " of <xref> with unmatched target: " ++
      listed (Text.sortedSet targets)
  | externalEntity name kind url =>
    "Found an external entity declaration, which will not be resolved: " ++ str name ++ " " ++
      str kind ++ " \"" ++ str url ++ "\""

/-- The page about an RFC, by its number. -/
def aboutRfc (number : String) : String :=
  Site.rfcPage number.toList

/-- The page that says what is expected. -/
def reference? : Issue → Option String
  | documentStructure => some (Site.requiredAt (anchor .header))
  | missingPart p => some (Site.requiredAt (anchor p))
  | missingIanaInRfc => some (Site.requiredAt (anchor .iana))
  | noAuthors => some (Site.requiredAt (anchor .authors))
  | emptyPart p => some (Site.requiredAt (anchor p))
  | partWithoutContent p => some (Site.requiredAt (anchor p))
  | unsuitedElement .abstract _ => some (Site.vocabularyAt "abstract")
  | unsuitedElement .. => some (Site.vocabularyAt "section")
  | abstractWithReferences _ => some (Site.requiredAt (anchor .abstract))
  | manyAuthors .. => some (Site.requiredAt (anchor .authors))
  | noOrganization _ => some (Site.vocabularyAt "organization")
  | noFullName _ => some (Site.vocabularyAt "fullname")
  | onlyAsciiName _ => some (Site.vocabularyAt "fullname")
  | authorRole .. => some (Site.vocabularyAt "role")
  | untitledReferences => some (Site.requiredAt (anchor .references))
  | referencesTitle _ => some (Site.requiredAt (anchor .references))
  | uncategorizedReferences _ => some (Site.requiredAt (anchor .references))
  | inDownrefRegistry l => some (Site.documentPage (Text.lower (l.filter (· != ' '))))
  | undefinedStatus _ number => some (Site.rfcPage number)
  | unrecognizedStatus number _ => some (Site.rfcPage number)
  | obsoleteReference _ number _ => some (Site.rfcPage number)
  | undefinedState draft => some (Site.documentPage draft)
  | publishedDraft draft => some (Site.documentPage draft)
  | missingDate => some (Site.vocabularyAt "date")
  | dateInPast _ => some (Site.vocabularyAt "date")
  | dateInFuture _ => some (Site.vocabularyAt "date")
  | missingCategory .text => some (Site.requiredAt (anchor .header))
  | missingCategory .markup => some (Site.vocabularyAt "category")
  | unknownCategory _ => some (Site.requiredAt (anchor .header))
  | unknownCategoryCode => some (Site.vocabularyAt "category")
  | notInAbstract .. => some (Site.requiredAt (anchor .abstract))
  | onlyInAbstract .. => some (Site.requiredAt (anchor .abstract))
  | relatedNotFound r _ => some (Site.vocabularyAt (verb r))
  | relatedObsolete r .. => some (Site.vocabularyAt (verb r))
  | alreadyUpdated .. => some (Site.vocabularyAt (verb .updates))
  | copyrightYear .. => some Site.licenseInfo
  | dateYear .. => some (Site.vocabularyAt "date")
  | fileNameCharacters _ => some Site.naming
  | fileNameExtension .. => some Site.naming
  | fileNameLength _ => some Site.naming
  | fileNameOther .. => some Site.naming
  | malformedDraftName _ => some Site.naming
  | requirementsUnexplained => some (Site.requiredAt "requirements-language")
  | requirementsWithoutParagraph => some (Site.requiredAt "requirements-language")
  | paragraphWithoutRequirements => some (Site.requiredAt "requirements-language")
  | paragraphMisquoted => some (Site.requiredAt "requirements-language")
  | badCombinations _ => some (Site.requiredAt "requirements-language")
  | keywordsNotListed _ => some (Site.requiredAt "requirements-language")
  | hostName _ => some (aboutRfc "6761")
  | ipv4 .multicast _ => some (aboutRfc "6676")
  | ipv4 .. => some (aboutRfc "5737")
  | ipv6 .. => some (aboutRfc "3849")
  | longLines .. => some Site.requiredContent
  | justifiedLines _ => some Site.requiredContent
  | hyphenatedLines _ => none
  | codeComments => some (Site.documentPage "rfc8879".toList)
  | codeWithoutLicense => some Site.licenseInfo
  | deprecatedElements .. => some Site.vocabulary
  | missingIpr => some (Site.vocabularyAt "ipr")
  | unknownIpr _ => some (Site.vocabularyAt "ipr")
  | disallowedIpr _ => some (Site.vocabularyAt "ipr")
  | workgroupName _ => some (Site.vocabularyAt "workgroup")
  | codeMarkersInSource _ => some (Site.vocabularyAt "markers")
  | codeMarkersInText _ => some (Site.vocabularyAt "sourcecode")
  | citationLookalikes .. => some (Site.vocabularyAt "xref")
  | xrefWithoutTarget _ => some (Site.vocabularyAt "target")
  | xrefTargets .. => some (Site.vocabularyAt "target")
  | externalEntity .. => some (Site.vocabularyAt "xinclude")

end Issue
end DraftLint
