import SearchBar.Command.Outcome
import SearchBar.Main
import SearchBar.Query.Snapshot
import SearchBar.Proofs.Query.Scan
import SearchBar.Proofs.Query.Spelling
import SearchBar.Proofs.Query.Pieces
import SearchBar.Proofs.Query.Adding
import SearchBar.Proofs.Query.Composition
import SearchBar.Proofs.Query.Recovery
import SearchBar.Proofs.Number.Rounding
import SearchBar.Proofs.Number.PlainText
import SearchBar.Proofs.Query.Distinct
import SearchBar.Proofs.Calendar.Characters
import SearchBar.Proofs.Calendar.Letters
import SearchBar.Proofs.Calendar.Periods
import SearchBar.Proofs.Calendar.Tiling
import SearchBar.Proofs.Compile.Bounds
import SearchBar.Proofs.Calendar.Forms
import SearchBar.Proofs.Calendar.PeriodText
import SearchBar.Proofs.Calendar.Parts
import SearchBar.Proofs.Calendar.Timestamps
import SearchBar.Proofs.Calendar.Wording
import SearchBar.Proofs.Calendar.RoundTrip
import SearchBar.Proofs.Calendar.IsoPeriods
import SearchBar.Proofs.Calendar.Limits
import SearchBar.Proofs.Calendar.Steps
import SearchBar.Proofs.Calendar.Phrasing
import SearchBar.Proofs.Calendar.Restating
import SearchBar.Proofs.Calendar.Weeks
import SearchBar.Proofs.Query.Writing
import SearchBar.Proofs.Query.Rereading
import SearchBar.Proofs.Query.RoundTrip
import SearchBar.Proofs.Query.Faithful
import SearchBar.Proofs.Compile.Branches
import SearchBar.Proofs.Query.Editing
import SearchBar.Proofs.Compile.Unambiguous
import SearchBar.Proofs.Query.Choices
import SearchBar.Proofs.Query.Drafts
import SearchBar.Proofs.Query.Conformance
import SearchBar.Proofs.Query.Placement
import SearchBar.Proofs.Number.Range
import SearchBar.Proofs.Query.Finite
import SearchBar.Proofs.Query.DelimitedWords
import SearchBar.Proofs.Query.DelimitedClauses
import SearchBar.Proofs.Query.DelimitedRoundTrip
import SearchBar.Proofs.Search.Matching
import SearchBar.Proofs.Search.Narrowing
import SearchBar.Proofs.Text.Sigma
import SearchBar.Proofs.Search.Terms
import SearchBar.Proofs.Search.Ordering
import SearchBar.Proofs.Search.Trails
import SearchBar.Proofs.Search.Limits
import SearchBar.Proofs.Query.Limits
import SearchBar.Proofs.Query.Blanks
import SearchBar.Proofs.Compile.Failures
import SearchBar.Proofs.Compile.Literals
import SearchBar.Proofs.Calendar.Saturdays
import SearchBar.Proofs.Calendar.Shifting
import SearchBar.Proofs.Query.Pairing
import SearchBar.Proofs.Query.AddingLaws
import SearchBar.Proofs.Query.OpenPhrases
import SearchBar.Proofs.Query.Positions
