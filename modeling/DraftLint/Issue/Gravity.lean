import DraftLint.Issue.Basic
import DraftLint.Mode

/-!
# Gravity of issues

How severe each kind of issue is in each mode.
-/

namespace DraftLint.Issue

open Severity Gravity

def gravity : Issue → Gravity
  | documentStructure => always error
  | missingPart .abstract => always error
  | missingPart _ => usual
  | missingIanaInRfc => unlessSubmitted comment
  | noAuthors => usual
  | emptyPart _ => usual
  | partWithoutContent _ => usual
  | unsuitedElement .. => usual
  | abstractWithReferences _ => usual
  | manyAuthors .. => unlessSubmitted comment
  | noOrganization _ => unlessSubmitted warning
  | noFullName _ => unlessSubmitted warning
  | onlyAsciiName _ => unlessSubmitted warning
  | authorRole .. => unlessSubmitted warning
  | untitledReferences => usual
  | referencesTitle _ => usual
  | uncategorizedReferences _ => usual
  | inDownrefRegistry _ => usual
  | undefinedStatus .. => unlessSubmitted comment
  | unrecognizedStatus .. => unlessSubmitted comment
  | obsoleteReference .. => usual
  | undefinedState _ => unlessSubmitted warning
  | publishedDraft _ => unlessSubmitted warning
  | missingDate => always warning
  | dateInPast _ => always warning
  | dateInFuture _ => always warning
  | missingCategory _ => always warning
  | unknownCategory _ => always warning
  | unknownCategoryCode => always warning
  | notInAbstract .. => unlessSubmitted warning
  | onlyInAbstract .. => unlessSubmitted warning
  | relatedNotFound .. => unlessSubmitted warning
  | relatedObsolete .. => unlessSubmitted warning
  | alreadyUpdated .. => unlessSubmitted warning
  | copyrightYear .. => always warning
  | dateYear .. => always warning
  | fileNameCharacters _ => always error
  | fileNameExtension .. => always error
  | fileNameLength _ => always error
  | fileNameOther .. => always error
  | malformedDraftName _ => always error
  | requirementsUnexplained => usual
  | requirementsWithoutParagraph => unlessSubmitted warning
  | paragraphWithoutRequirements => unlessSubmitted warning
  | paragraphMisquoted => unlessSubmitted error
  | badCombinations _ => unlessSubmitted comment
  | keywordsNotListed _ => unlessSubmitted warning
  | hostName _ => unlessSubmitted warning
  | ipv4 .. => unlessSubmitted warning
  | ipv6 .. => unlessSubmitted warning
  | longLines .. => ⟨error, warning, warning⟩
  | justifiedLines _ => usual
  | hyphenatedLines _ => unlessSubmitted warning
  | codeComments => always warning
  | codeWithoutLicense => unlessSubmitted warning
  | deprecatedElements .. => always warning
  | missingIpr => always error
  | unknownIpr _ => always warning
  | disallowedIpr _ => always error
  | workgroupName _ => always warning
  | codeMarkersInSource _ => unlessSubmitted warning
  | codeMarkersInText _ => unlessSubmitted warning
  | citationLookalikes .. => unlessSubmitted warning
  | xrefWithoutTarget _ => ⟨error, warning, error⟩
  | xrefTargets .. => ⟨error, warning, error⟩
  | externalEntity .. => unlessSubmitted warning

end DraftLint.Issue
