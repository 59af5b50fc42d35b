import DraftLint.Address.Host
import DraftLint.Citation
import DraftLint.Document
import DraftLint.Markup.Namespace
import DraftLint.Markup.Prose
import DraftLint.RequirementLevel
import DraftLint.Verdict

/-!
# Wording

Requirement levels and the paragraph that gives them their meaning, and the host names and addresses in
running text.
-/

namespace DraftLint.Rules

open Finding Issue

/-! ## Requirement levels -/

/-- What a document says about requirement levels. -/
structure Requirements where
  /-- The keywords used outside the paragraph. -/
  used : List Text
  hasParagraph : Bool
  resembles : Bool
  citesRfc2119 : Bool
  /-- The keywords that the paragraph lists. -/
  listed : List Text
  combinations : List Text
  /-- Where the combinations stand, if that is known. -/
  places : Option (List Place)

/-- The attribute names RFC 2119, in any case and with or without spaces. -/
def isRfc2119 (t : Text) : Bool :=
  (Text.upperAscii t).filter (· != ' ') == "RFC2119".toList

/-- The document refers to RFC 2119 in one way or another. -/
def citesRfc2119 (root : Markup.Element) (text : Text) : Bool :=
  ((root.allNamed "xref").any fun e => isRfc2119 (e.attributeText "target")) ||
    ((root.allNamed "reference").any fun e => isRfc2119 (e.attributeText "anchor")) ||
    (root.all.any fun e => e.name == Markup.includeName &&
      Text.contains "reference.RFC.2119.xml".toList (e.attributeText "href")) ||
    Citation.rfc2119.occursIn text

def Requirements.ofPlain (d : Plain.Document) : Requirements :=
  { used := RequirementLevel.used (Text.squeeze d.body)
    hasParagraph := d.overview.explainsRfc2119 || d.overview.explainsRfc8174
    resembles := d.overview.resembles
    citesRfc2119 := d.scan.items.citesRfc2119
    listed := d.overview.listedKeywords
    combinations := d.scan.items.combinations.map (·.1)
    places := some (d.scan.items.combinations.map (·.2)) }

def Requirements.ofMarkup (root : Markup.Element) : Requirements :=
  let text := root.runningText
  { used := RequirementLevel.used text
    hasParagraph := RequirementLevel.hasParagraph text
    resembles := RequirementLevel.resembles text
    citesRfc2119 := Rules.citesRfc2119 root text
    listed := RequirementLevel.listed text
    combinations := RequirementLevel.badCombinations text
    places := none }

/-- The keywords used that are neither listed nor bad combinations, each once. -/
def Requirements.unlisted (r : Requirements) : List Text :=
  Text.distinct <| r.used.filter fun k =>
    !r.listed.contains k && !RequirementLevel.badCombination.fits k

/-- Keywords and paragraph go together. -/
def Requirements.findings (r : Requirements) : List Finding :=
  (if !r.used.isEmpty && !r.hasParagraph then
    [anywhere (if r.citesRfc2119 then requirementsWithoutParagraph else requirementsUnexplained)]
  else []) ++
  (if r.hasParagraph && r.used.isEmpty then [anywhere paragraphWithoutRequirements] else []) ++
  (if r.resembles && !r.hasParagraph then [anywhere paragraphMisquoted] else []) ++
  (if r.combinations.isEmpty then [] else [⟨badCombinations r.combinations, r.places⟩]) ++
  if r.hasParagraph && !r.unlisted.isEmpty then [anywhere (keywordsNotListed r.unlisted)] else []

/-- The requirement levels of the document are explained, and only used ones are. -/
def requirements : Document → Verdict
  | .text d => .of (Requirements.ofPlain d).findings
  | .markup d => .of (Requirements.ofMarkup d.root).findings

/-! ## Names and addresses -/

/-- The host names and the candidates for addresses in a document. -/
structure Addresses where
  hosts : List Text
  ipv4 : List Text
  ipv6 : List Text

def addresses : Document → Addresses
  | .text d => ⟨d.scan.items.hosts, d.scan.items.ipv4, d.scan.items.ipv6⟩
  | .markup d =>
    let text := d.root.runningText
    ⟨Address.Host.namesIn text, Address.IPv4.candidatesIn text, Address.IPv6.candidatesIn text⟩

/-- Host names are names of files or set aside for examples. -/
def hostNames (d : Document) : Verdict :=
  .of <| (Text.distinct (addresses d).hosts).filterMap fun name =>
    if Address.Host.isFileName name || Address.Host.isExample name then none
    else some (anywhere (hostName name))

/-- Addresses are set aside for documentation, or mean no particular host. -/
def ipv4Addresses (d : Document) : Verdict :=
  .of <| (Text.distinct (addresses d).ipv4).filterMap fun candidate => do
    let a ← Address.IPv4.read? candidate
    let concern ← a.concern?
    return anywhere (ipv4 concern a.text)

/-- Addresses are set aside for documentation, or mean no particular host. -/
def ipv6Addresses (d : Document) : Verdict :=
  .of <| (Text.distinct (addresses d).ipv6).filterMap fun candidate => do
    let a ← Address.IPv6.read? candidate
    let concern ← a.concern?
    return anywhere (ipv6 concern candidate)

end DraftLint.Rules
