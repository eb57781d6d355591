import Sentential.Main
import Sentential.Trace
import Sentential.Workspace
import Sentential.Proofs.Relabelling
import Sentential.Proofs.Balance
import Sentential.Proofs.Grammar
import Sentential.Proofs.Acceptance
import Sentential.Formula.Walk
import Sentential.Proofs.NodeTable
import Sentential.Proofs.Provenance
import Sentential.Proofs.RelativeDepth
import Sentential.Proofs.RoundTrip
import Sentential.Proofs.Leaves
import Sentential.Proofs.Scanning
import Sentential.Proofs.Tabulation
import Sentential.Proofs.Rejection
import Sentential.Proofs.Listing
import Sentential.Proofs.Substitution
import Sentential.Proofs.Respelling
import Sentential.Proofs.Scanners
import Sentential.Proofs.Emptiness
import Sentential.Proofs.Bindings
import Sentential.Proofs.OnePass
import Sentential.Proofs.Reopening
import Sentential.Proofs.Passes
import Sentential.Proofs.Rendering
import Sentential.Proofs.Unmatched
import Sentential.Proofs.Unbinding
import Sentential.Proofs.Dangling
import Sentential.Proofs.LinearForm
import Sentential.Proofs.Alignment
import Sentential.Proofs.TableReading
import Sentential.Proofs.Insertion
import Sentential.Formula.Build
import Sentential.Proofs.Building
