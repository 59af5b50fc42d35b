import DraftLint.Json.Reader
import DraftLint.Json.Plain
import DraftLint.Text.Utf8
import DraftLint.Text.Wrap
import DraftLint.Calendar.Written
import DraftLint.Citation
import DraftLint.RequirementLevel
import DraftLint.Status
import DraftLint.Layout
import DraftLint.Address.Host
import DraftLint.Nit
import DraftLint.FileName
import DraftLint.Plain.Document
import DraftLint.Registry
import DraftLint.Markup.Document
import DraftLint.Markup.Prose
import DraftLint.Markup.Bibliography
import DraftLint.Document
import DraftLint.Lookup
import DraftLint.Rule
import DraftLint.Review
import DraftLint.Log
import DraftLint.Settings
import DraftLint.CommandLine.Run
import DraftLint.Main
import DraftLint.Proofs.Text.Lines
import DraftLint.Proofs.Plain.Body
import DraftLint.Proofs.Pattern.Matching
import DraftLint.Proofs.Citation
import DraftLint.Proofs.Inquiry
import DraftLint.Proofs.Grading
import DraftLint.Proofs.Markup.Labels
import DraftLint.Proofs.Plain.Extents
import DraftLint.Proofs.Plain.Listing
import DraftLint.Proofs.Rules.Bibliography
import DraftLint.Proofs.Review
import DraftLint.Proofs.Schedule
import DraftLint.Proofs.Offline
import DraftLint.Proofs.Rules.Replies
import DraftLint.Proofs.History
import DraftLint.Proofs.Markup.Naming
import DraftLint.Proofs.Rules.Labels
import DraftLint.Proofs.Pattern.Positions
import DraftLint.Proofs.Pattern.Replacing
import DraftLint.Proofs.DraftName
import DraftLint.Proofs.Plain.Labels
import DraftLint.Proofs.Rules.Drafts
import DraftLint.Proofs.Pattern.Preference
import DraftLint.Proofs.Spelling
import DraftLint.Proofs.Registry.Links
import DraftLint.Proofs.Rules.Downrefs
import DraftLint.Proofs.CommandLine.ExitCode
import DraftLint.Proofs.Plain.Places
import DraftLint.Proofs.Unconnected
import DraftLint.Proofs.Rules.Places
import DraftLint.Proofs.Heading
import DraftLint.Proofs.Plain.Content
import DraftLint.Proofs.Rules.Parts
import DraftLint.Proofs.Plain.Preparation
import DraftLint.Proofs.Markup.Figures
import DraftLint.Proofs.Plain.Joining
import DraftLint.Proofs.Rules.Figures
import DraftLint.Proofs.Text.Removal
import DraftLint.Proofs.Markup.ExternalEntity
import DraftLint.Proofs.Markup.Sections
import DraftLint.Proofs.Markup.RfcSpelling
import DraftLint.Proofs.Statement
import DraftLint.Proofs.Rules.Succession
import DraftLint.Proofs.Text.Placed
import DraftLint.Proofs.Markup.Starts
import DraftLint.Proofs.Markup.Origins
import DraftLint.Proofs.Plain.Letterhead
import DraftLint.Proofs.Rules.Addresses
import DraftLint.Proofs.Plain.HeaderDate
import DraftLint.Proofs.Plain.Affiliation
import DraftLint.Proofs.Plain.Outline
import DraftLint.Proofs.Plain.Kinds
import DraftLint.Proofs.Text.Squeeze
import DraftLint.Proofs.Plain.Overview
import DraftLint.Proofs.Pattern.Occurrence
import DraftLint.Proofs.Plain.CodeBlocks
import DraftLint.Proofs.Rules.Combinations
import DraftLint.Proofs.Text.PrefixFree
import DraftLint.Proofs.Pattern.Folding
import DraftLint.Proofs.Keywords
import DraftLint.Proofs.Paragraph
import DraftLint.Proofs.Calendar.Days
import DraftLint.Proofs.Rules.Completion
import DraftLint.Proofs.Calendar.Reading
import DraftLint.Proofs.FileName
import DraftLint.Proofs.Markup.Children
import DraftLint.Proofs.Pattern.Context
import DraftLint.Proofs.Rules.Citations
import DraftLint.Proofs.Rules.Naming
import DraftLint.Proofs.Text.Utf8
import DraftLint.Proofs.Plain.Decoding
import DraftLint.Proofs.Rules.LineLength
import DraftLint.Proofs.Address.Values
import DraftLint.Proofs.Rules.HostNames
import DraftLint.Proofs.Rules.AddressVerdicts
import DraftLint.Proofs.Address.ExampleNames
import DraftLint.Proofs.Rules.Category
import DraftLint.Proofs.Text.Filling
import DraftLint.Proofs.Report
import DraftLint.Proofs.Markup.Growth
import DraftLint.Proofs.Rules.CrossReferences
