import Rebuild.Main
import Rebuild.Proofs.Depfile.Growth
import Rebuild.Proofs.Depfile.Listing
import Rebuild.Proofs.Depfile.Inputs
import Rebuild.Proofs.Depfile.Segments
import Rebuild.Proofs.Depfile.Words
import Rebuild.Proofs.Depfile.Continuations
import Rebuild.Proofs.Depfile.Records
import Rebuild.Proofs.Depfile.Writing
import Rebuild.Proofs.Path
import Rebuild.Proofs.Path.Meaning
import Rebuild.Proofs.CommandHash
import Rebuild.Proofs.Expansion
import Rebuild.Proofs.Sequence
import Rebuild.Proofs.Scan.Onward
import Rebuild.Proofs.Scan.Settled
import Rebuild.Proofs.Scan.Steps
import Rebuild.Proofs.Scan.Course
import Rebuild.Proofs.Scan.Visit
import Rebuild.Proofs.Scan.Rules
import Rebuild.Proofs.Scan.Outcome
import Rebuild.Proofs.Scan.Cycles
import Rebuild.Proofs.Scan.Again
import Rebuild.Proofs.Scan.Renewal
import Rebuild.Proofs.Scan.Dependencies
import Rebuild.Proofs.Scan.Coverage
import Rebuild.Proofs.Scan.Extent
import Rebuild.Proofs.Scan.Additions
import Rebuild.Proofs.Scan.Readiness
import Rebuild.Proofs.Scan.Validations
import Rebuild.Proofs.Scan.Comparison
import Rebuild.Proofs.Scan.Monotone
import Rebuild.Proofs.Scan.Confluence
import Rebuild.Proofs.Schedule.Cascade
import Rebuild.Proofs.Schedule.Places
import Rebuild.Proofs.Schedule.Need
import Rebuild.Proofs.Schedule.Missing
import Rebuild.Proofs.Schedule.Moves
import Rebuild.Proofs.Schedule.Flow
import Rebuild.Proofs.Schedule.Rest
import Rebuild.Proofs.Schedule.Grounded
import Rebuild.Proofs.Schedule.Supply
import Rebuild.Proofs.Build.Course
import Rebuild.Proofs.Build.Admission
import Rebuild.Proofs.Build.Steady
import Rebuild.Proofs.Build.Order
import Rebuild.Proofs.Build.Ends
import Rebuild.Proofs.Build.Records
import Rebuild.Proofs.Build.Completion
import Rebuild.Proofs.Build.Aftermath
import Rebuild.Proofs.Build.Failure
import Rebuild.Proofs.Build.Waiting
import Rebuild.Proofs.Build.Restat
import Rebuild.Proofs.Build.Workshop
import Rebuild.Proofs.Build.Tidy
import Rebuild.Proofs.Build.Diligent
import Rebuild.Proofs.Build.Convergence
import Rebuild.Proofs.Text.Numeral
import Rebuild.Proofs.Text.Utf8
import Rebuild.Proofs.BuildLog.Writing
import Rebuild.Proofs.BuildLog.Entries
import Rebuild.Proofs.BuildLog.Place
import Rebuild.Proofs.BuildLog.Reload
import Rebuild.Proofs.BuildLog.ReadBack
import Rebuild.Proofs.Echo
import Rebuild.Proofs.Mirror
import Rebuild.Proofs.Scopes
import Rebuild.Proofs.Substitution
import Rebuild.Proofs.Rebinding
import Rebuild.Proofs.Graph.Integrity
import Rebuild.Proofs.Graph.Listing
import Rebuild.Proofs.Manifest.Linked
import Rebuild.Proofs.Manifest.Lines
import Rebuild.Proofs.Manifest.Cursors
import Rebuild.Proofs.Manifest.Tokens
import Rebuild.Proofs.Manifest.Values
import Rebuild.Proofs.Manifest.Clauses
import Rebuild.Proofs.Manifest.Statements
import Rebuild.Proofs.Manifest.Comments
import Rebuild.Proofs.Manifest.Endings
import Rebuild.Proofs.Manifest.LineEnds
import Rebuild.Proofs.Manifest.Nesting
import Rebuild.Proofs.Manifest.Writing
import Rebuild.Proofs.Manifest.Pieces
import Rebuild.Proofs.Manifest.Reading
import Rebuild.Proofs.Manifest.Display
import Rebuild.Proofs.Manifest.Continued
import Rebuild.Proofs.Manifest.Sections
import Rebuild.Proofs.Manifest.RuleNames
import Rebuild.Proofs.Manifest.Declaring
import Rebuild.Proofs.Manifest.ReadBack
import Rebuild.Proofs.Manifest.Isolation
import Rebuild.Proofs.Manifest.Seams
import Rebuild.Proofs.Manifest.Inclusion
import Rebuild.Proofs.Manifest.Positions
import Rebuild.Proofs.Manifest.Progress
import Rebuild.Proofs.Manifest.Tokenization
import Rebuild.Proofs.Targets.Defaults
import Rebuild.Proofs.Targets.Listing
import Rebuild.Proofs.FileTree.Removal
import Rebuild.Proofs.Clean
