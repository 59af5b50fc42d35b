import DraftLint.Rules.Bibliography
import DraftLint.Rules.CrossReferences
import DraftLint.Rules.Dates
import DraftLint.Rules.Naming
import DraftLint.Rules.PlainLayout
import DraftLint.Rules.Succession
import DraftLint.Rules.Wording

/-!
# Rules

The rules in the order in which they report, the formats they apply to, and their verdicts.
-/

namespace DraftLint

inductive Rule where
  -- structure
  | abstract
  | introduction
  | security
  | authors
  | references
  | iana
  | categories
  -- references
  | downrefs
  | normative
  | informative
  | unclassified
  | drafts
  -- metadata
  | date
  | category
  | succession
  | copyright
  | fileName
  | draftName
  -- text
  | requirements
  | hostNames
  | ipv4
  | ipv6
  -- layout of plain text
  | lineLength
  | spacing
  | hyphenation
  | codeBlocks
  | codeLicense
  -- vocabulary of markup
  | deprecated
  | rights
  | workgroups
  | codeMarkers
  | citations
  | crossReferences
  | externalEntities
deriving DecidableEq, Repr

namespace Rule

/-- All rules, in the order in which their findings are reported. -/
def every : List Rule :=
  [abstract, introduction, security, authors, references, iana, categories, downrefs, normative,
    informative, unclassified, drafts, date, category, succession, copyright, fileName, draftName,
    requirements, hostNames, ipv4, ipv6, lineLength, spacing, hyphenation, codeBlocks, codeLicense,
    deprecated, rights, workgroups, codeMarkers, citations, crossReferences, externalEntities]

/-- The format that the rule is for, if it is for one only. -/
def format? : Rule → Option Format
  | categories | lineLength | spacing | hyphenation | codeBlocks | codeLicense => some .text
  | succession | deprecated | rights | workgroups | codeMarkers | citations | crossReferences
  | externalEntities => some .markup
  | _ => none

/-- The rules for documents of a format. -/
def forFormat (f : Format) : List Rule :=
  every.filter fun r => r.format?.all (· == f)

/-- What the rule says about the document by itself. -/
def examine (s : Standard) (d : Document) : Rule → Verdict
  | abstract => Rules.abstract d
  | introduction => Rules.part .introduction d
  | security => Rules.part .security d
  | authors => Rules.authors d
  | references => Rules.references d
  | iana => Rules.part .iana d
  | categories => Rules.categories d
  | downrefs => .clean
  | normative => .clean
  | informative => .clean
  | unclassified => .clean
  | drafts => .clean
  | date => Rules.date s d
  | category => Rules.category d
  | succession => Rules.consistentSuccession d
  | copyright => Rules.copyright s d
  | fileName => Rules.fileName d
  | draftName => Rules.draftName d
  | requirements => Rules.requirements d
  | hostNames => Rules.hostNames d
  | ipv4 => Rules.ipv4Addresses d
  | ipv6 => Rules.ipv6Addresses d
  | lineLength => Rules.lineLength d
  | spacing => Rules.spacing d
  | hyphenation => Rules.hyphenation d
  | codeBlocks => Rules.codeBlocks d
  | codeLicense => Rules.codeLicense d
  | deprecated => Rules.deprecated d
  | rights => Rules.rights d
  | workgroups => Rules.workgroups d
  | codeMarkers => Rules.codeMarkers d
  | citations => Rules.citations d
  | crossReferences => Rules.crossReferences d
  | externalEntities => Rules.externalEntities d

/-- What the rule says about the document with the help of other sites. -/
def inquire (d : Document) : Rule → Inquiry Verdict
  | downrefs => Rules.downrefs d
  | normative => Rules.currentRfcs .normative d
  | informative => Rules.currentRfcs .informative d
  | unclassified => Rules.currentRfcs .unclassified d
  | drafts => Rules.unpublishedDrafts d
  | succession => Rules.possibleSuccession d
  | _ => return .clean

/-- The verdict of the rule; other sites are asked only if that is wanted. -/
def verdict (s : Standard) (online : Bool) (d : Document) (r : Rule) : Inquiry Verdict :=
  if online then do
    let told ← r.inquire d
    return (r.examine s d).andThen told
  else return r.examine s d

end Rule
end DraftLint
