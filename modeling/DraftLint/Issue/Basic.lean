import DraftLint.Heading
import DraftLint.Address.IPv6

/-!
# Issues

Everything that a rule can object to, with what its wording needs to say.
-/

namespace DraftLint

/-- The two formats of documents. -/
inductive Format where
  | text
  | markup
deriving DecidableEq, Repr

/-- How a document changes an earlier one. -/
inductive Relation where
  | obsoletes
  | updates
deriving DecidableEq, Repr

inductive Issue where
  -- the parts of a document
  | documentStructure
  | missingPart (part : Part)
  | missingIanaInRfc
  | noAuthors
  | emptyPart (part : Part)
  | partWithoutContent (part : Part)
  | unsuitedElement (part : Part) (tag : Text)
  | abstractWithReferences (count : Nat)
  | manyAuthors (count : Nat) (format : Format)
  | noOrganization (author : Text)
  | noFullName (author : Text)
  | onlyAsciiName (author : Text)
  | authorRole (author role : Text)
  | untitledReferences
  | referencesTitle (title : Text)
  -- the documents referred to
  | uncategorizedReferences (count : Nat)
  | inDownrefRegistry (label : Text)
  | undefinedStatus (kind : ReferenceKind) (number : Text)
  | unrecognizedStatus (number status : Text)
  | obsoleteReference (kind : ReferenceKind) (number : Text) (successors : List Text)
  | undefinedState (draft : Text)
  | publishedDraft (draft : Text)
  -- date, category and the documents replaced
  | missingDate
  | dateInPast (days : Nat)
  | dateInFuture (days : Nat)
  | missingCategory (format : Format)
  | unknownCategory (category : Text)
  | unknownCategoryCode
  | notInAbstract (relation : Relation) (number : Text)
  | onlyInAbstract (relation : Relation) (number : Text)
  | relatedNotFound (relation : Relation) (number : Text)
  | relatedObsolete (relation : Relation) (number : Text) (successors : List Text)
  | alreadyUpdated (number : Text) (updaters : List Text)
  | copyrightYear (found : Nat) (expected : Int)
  | dateYear (found : Text) (expected : Int)
  -- the file
  | fileNameCharacters (base : Text)
  | fileNameExtension (extension : Text) (format : Format)
  | fileNameLength (name : Text)
  | fileNameOther (base name : Text)
  | malformedDraftName (base : Text)
  -- requirement levels
  | requirementsUnexplained
  | requirementsWithoutParagraph
  | paragraphWithoutRequirements
  | paragraphMisquoted
  | badCombinations (found : List Text)
  | keywordsNotListed (keywords : List Text)
  -- addresses
  | hostName (name : Text)
  | ipv4 (concern : Address.IPv4.Concern) (address : Text)
  | ipv6 (concern : Address.IPv6.Concern) (address : Text)
  -- layout of plain text
  | longLines (count longest length : Nat)
  | justifiedLines (count : Nat)
  | hyphenatedLines (count : Nat)
  | codeComments
  | codeWithoutLicense
  -- the vocabulary of markup
  | deprecatedElements (count : Nat) (tags : List Text)
  | missingIpr
  | unknownIpr (ipr : Text)
  | disallowedIpr (ipr : Text)
  | workgroupName (name : Text)
  | codeMarkersInSource (count : Nat)
  | codeMarkersInText (count : Nat)
  | citationLookalikes (count : Nat) (texts : List Text)
  | xrefWithoutTarget (count : Nat)
  | xrefTargets (count : Nat) (targets : List Text)
  | externalEntity (name kind url : Text)

namespace Issue

/-- The stem by which codes name a part. -/
def stem : Part → String
  | .header => "HEADER"
  | .abstract => "ABSTRACT"
  | .introduction => "INTRODUCTION"
  | .security => "SECURITY_CONSIDERATIONS"
  | .authors => "AUTHOR"
  | .references => "REFERENCES"
  | .iana => "IANA_CONSIDERATIONS"

/-- The code that names the kind of issue. -/
def code : Issue → String
  | documentStructure => "INVALID_DOCUMENT_STRUCTURE"
  | missingPart p => "MISSING_" ++ stem p ++ "_SECTION"
  | missingIanaInRfc => "MISSING_IANA_CONSIDERATIONS_SECTION"
  | noAuthors => "MISSING_AUTHOR_SECTION"
  | emptyPart p => "EMPTY_" ++ stem p ++ "_SECTION"
  | partWithoutContent p => "INVALID_" ++ stem p ++ "_SECTION"
  | unsuitedElement p _ => "INVALID_" ++ stem p ++ "_SECTION_CHILD"
  | abstractWithReferences _ => "INVALID_ABSTRACT_SECTION_REF"
  | manyAuthors .. => "TOO_MANY_AUTHORS"
  | noOrganization _ => "EMPTY_AUTHOR_ORGANIZATION"
  | noFullName _ => "MISSING_AUTHOR_FULLNAME"
  | onlyAsciiName _ => "MISSING_AUTHOR_FULLNAME_WITH_ASCII"
  | authorRole .. => "INVALID_AUTHOR_ROLE"
  | untitledReferences => "MISSING_REFERENCES_TITLE"
  | referencesTitle _ => "INVALID_REFERENCES_TITLE"
  | uncategorizedReferences _ => "UNCATEGORIZED_REFERENCES"
  | inDownrefRegistry _ => "DOWNREF_DRAFT"
  | undefinedStatus .. => "UNDEFINED_STATUS"
  | unrecognizedStatus .. => "UNKNOWN_STATUS"
  | obsoleteReference .normative .. => "OBSOLETE_DOCUMENT"
  | obsoleteReference .informative .. => "OBSOLETE_INFORMATIVE_REFERENCE"
  | obsoleteReference .unclassified .. => "OBSOLETE_UNCLASSIFIED_REFERENCE"
  | undefinedState _ => "UNDEFINED_STATE"
  | publishedDraft _ => "INVALID_STATE_FOR_DRAFT"
  | missingDate => "MISSING_DOC_DATE"
  | dateInPast _ => "DOC_DATE_IN_PAST"
  | dateInFuture _ => "DOC_DATE_IN_FUTURE"
  | missingCategory _ => "MISSING_DOC_CATEGORY"
  | unknownCategory _ => "INVALID_DOC_CATEGORY"
  | unknownCategoryCode => "INVALID_DOC_CATEGORY"
  | notInAbstract .obsoletes _ => "OBSOLETES_NOT_IN_ABSTRACT"
  | notInAbstract .updates _ => "UPDATES_NOT_IN_ABSTRACT"
  | onlyInAbstract .obsoletes _ => "OBSOLETES_NOT_IN_RFC"
  | onlyInAbstract .updates _ => "UPDATES_NOT_IN_RFC"
  | relatedNotFound .obsoletes _ => "OBSOLETES_RFC_NOT_FOUND"
  | relatedNotFound .updates _ => "UPDATES_RFC_NOT_FOUND"
  | relatedObsolete .obsoletes .. => "OBSOLETES_OBSOLETED_RFC"
  | relatedObsolete .updates .. => "UPDATES_OBSOLETED_RFC"
  | alreadyUpdated .. => "UPDATES_UPDATED_RFC"
  | copyrightYear .. => "COPYRIGHT_YEAR_MISMATCH"
  | dateYear .. => "COPYRIGHT_YEAR_MISMATCH"
  | fileNameCharacters _ => "FILENAME_BAD_CHARACTERS"
  | fileNameExtension .. => "FILENAME_EXT_MISMATCH"
  | fileNameLength _ => "FILENAME_TOO_LONG"
  | fileNameOther .. => "FILENAME_NOT_DOCNAME"
  | malformedDraftName _ => "DOCNAME_MALFORMED"
  | requirementsUnexplained => "REQLEVEL_INFO_MISSING"
  | requirementsWithoutParagraph => "MISSING_REQLEVEL_BOILERPLATE"
  | paragraphWithoutRequirements => "UNUSED_REQLEVEL_BOILERPLATE"
  | paragraphMisquoted => "SIMILAR_REQLEVEL_BOILERPLATE"
  | badCombinations _ => "BAD_KEYWORD_COMBINATION"
  | keywordsNotListed _ => "KEYWORD_NOT_IN_BOILERPLATE"
  | hostName _ => "FQDN_NOT_EXAMPLE"
  | ipv4 .privateUse _ => "IPV4_PRIVATE_NOT_EXAMPLE"
  | ipv4 .multicast _ => "IPV4_MULTICAST_NOT_EXAMPLE"
  | ipv4 .generic _ => "IPV4_GENERIC_NOT_EXAMPLE"
  | ipv6 .uniqueLocal _ => "IPV6_LOCAL_NOT_EXAMPLE"
  | ipv6 .linkLocal _ => "IPV6_LINK_NOT_EXAMPLE"
  | ipv6 .generic _ => "IPV6_GENERIC_NOT_EXAMPLE"
  | longLines .. => "LINE_TOO_LONG"
  | justifiedLines _ => "RAGGED_RIGHT"
  | hyphenatedLines _ => "HYPHENATED_LINE_BREAKS"
  | codeComments => "COMMENT_OUT_OF_CODE_BLOCK"
  | codeWithoutLicense => "CODE_BLOCK_MISSING_LICENSE"
  | deprecatedElements .. => "DEPRECATED_ELEMENT"
  | missingIpr => "MISSING_IPR_ATTRIBUTE"
  | unknownIpr _ => "UNKNOWN_IPR_ATTRIBUTE"
  | disallowedIpr _ => "DISALLOWED_IPR_ATTRIBUTE"
  | workgroupName _ => "WORKGROUP_NOT_GROUP"
  | codeMarkersInSource _ => "CODE_BEGINS_IN_SOURCECODE"
  | codeMarkersInText _ => "CODE_BEGINS_IN_TEXT"
  | citationLookalikes .. => "TEXT_LOOKS_LIKE_REF"
  | xrefWithoutTarget _ => "MISSING_XREF_TARGET"
  | xrefTargets .. => "XREF_TARGET_NOT_ANCHOR"
  | externalEntity .. => "EXTERNAL_ENTITY"

end Issue
end DraftLint
