import UriTemplates.OneShot
import UriTemplates.Proofs.Matching.RoundTrip
import UriTemplates.Proofs.Matching.Soundness
import UriTemplates.Regex.Parse
import UriTemplates.Router
import UriTemplates.Session
import UriTemplates.Proofs.Binding.Agreement
import UriTemplates.Proofs.Matching.Delimited
import UriTemplates.Proofs.Matching.Single
import UriTemplates.Proofs.Grammar.Specification
import UriTemplates.Proofs.Grammar.Tokens
import UriTemplates.Proofs.Grammar.Scan
import UriTemplates.Proofs.Grammar.Printing
import UriTemplates.Proofs.Grammar.Outcome
import UriTemplates.Proofs.Grammar.Spellings
import UriTemplates.Proofs.Router.Changes
import UriTemplates.Proofs.Router.Dispatch
import UriTemplates.Proofs.Pattern.Interchange
import UriTemplates.Proofs.Template.Preference
import UriTemplates.Proofs.Matching.Findings
import UriTemplates.Proofs.Matching.Completeness
import UriTemplates.Proofs.Binding.Pairing
import UriTemplates.Proofs.Matching.Contents
import UriTemplates.Proofs.Matching.Refusal
import UriTemplates.Proofs.Matching.Forms
import UriTemplates.Proofs.Router.Precedence
import UriTemplates.Proofs.Router.Calls
import UriTemplates.Proofs.Matching.Unhinted
import UriTemplates.Proofs.Reference.Reading
import UriTemplates.Proofs.Reference.Segments
import UriTemplates.Proofs.Reference.Written
import UriTemplates.Proofs.Reference.Relative
import UriTemplates.Proofs.Matching.Reordering
import UriTemplates.Proofs.Session.Calls
import UriTemplates.Proofs.Expansion.Delimiters
import UriTemplates.Proofs.Expansion.UriText
import UriTemplates.Proofs.Expansion.Distribution
import UriTemplates.Proofs.Binding.Keeping
import UriTemplates.Proofs.Matching.Required
import UriTemplates.Proofs.Binding.Mixed
import UriTemplates.Proofs.Matching.Entries
import UriTemplates.Proofs.Matching.Triplets
import UriTemplates.Proofs.Text.Sequences
import UriTemplates.Proofs.Matching.Truncation
import UriTemplates.Proofs.Template.Foremost
import UriTemplates.Proofs.Matching.Shapes
import UriTemplates.Proofs.Value.Keys
import UriTemplates.Proofs.Value.Normalization
import UriTemplates.Proofs.Grammar.Offsets
import UriTemplates.Proofs.Pattern.Language
import UriTemplates.Proofs.Pattern.Splits
