import TestInputs.Document.Report
import TestInputs.Document.Settings
import TestInputs.Document.Unit
import TestInputs.Hook
import TestInputs.Outline
import TestInputs.Sequence.Joined
import TestInputs.Tuples
import TestInputs.Proofs.Composition
import TestInputs.Proofs.Frame
import TestInputs.Proofs.Levels
import TestInputs.Proofs.Termination
import TestInputs.Proofs.Tuples
import TestInputs.Proofs.Assignability
import TestInputs.Proofs.Generated
import TestInputs.Proofs.Nesting
import TestInputs.Proofs.Typing
import TestInputs.Proofs.Coverage
import TestInputs.Proofs.Distinct
import TestInputs.Proofs.Growth
import TestInputs.Proofs.Reports
import TestInputs.Proofs.Cycles
import TestInputs.Proofs.Sessions
import TestInputs.Proofs.Cursors
import TestInputs.Proofs.Readings
import TestInputs.Proofs.Paths
import TestInputs.Proofs.Reachability
import TestInputs.Proofs.Agreement
import TestInputs.Proofs.Declarations
import TestInputs.Proofs.Locality
import TestInputs.Proofs.Overloads
import TestInputs.Proofs.Selection
import TestInputs.Proofs.Candidates
import TestInputs.Proofs.Documents
import TestInputs.Proofs.Positions
import TestInputs.Proofs.Lengths
import TestInputs.Proofs.Thinning
import TestInputs.Proofs.Literals
import TestInputs.Proofs.Registrations
import TestInputs.Proofs.Merging
import TestInputs.Proofs.Numerals
import TestInputs.Proofs.Acceptance
import TestInputs.Proofs.Machines
import TestInputs.Proofs.Reels
import TestInputs.Proofs.Composed
