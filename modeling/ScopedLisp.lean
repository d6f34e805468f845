import ScopedLisp.Main
import ScopedLisp.Proofs.CommandLine.Budget
import ScopedLisp.Proofs.CommandLine.ExitCode
import ScopedLisp.Proofs.Datum.Acceptance
import ScopedLisp.Proofs.Datum.Reread
import ScopedLisp.Proofs.Eval.CallerIndependence
import ScopedLisp.Proofs.Eval.Operations
import ScopedLisp.Proofs.Program.Application
import ScopedLisp.Proofs.Program.Arithmetic
import ScopedLisp.Proofs.Program.Confinement
import ScopedLisp.Proofs.Program.Immutability
import ScopedLisp.Proofs.Program.LayoutIndependence
import ScopedLisp.Proofs.Program.NameIndependence
import ScopedLisp.Proofs.Program.Operands
import ScopedLisp.Proofs.Program.Pieces
import ScopedLisp.Proofs.Program.Reachable
import ScopedLisp.Proofs.Program.ReadAhead
import ScopedLisp.Proofs.Program.Reservation
import ScopedLisp.Proofs.Program.Shorthand
import ScopedLisp.Proofs.Program.Termination
import ScopedLisp.Proofs.Scopes.Assignment
import ScopedLisp.Proofs.Session.Additions
import ScopedLisp.Proofs.Store.Links
import ScopedLisp.Proofs.Token.Separation
