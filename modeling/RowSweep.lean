import RowSweep.Sheet
import RowSweep.Main
import RowSweep.Proofs.Solver.Kind
import RowSweep.Proofs.Solver.Solutions
import RowSweep.Proofs.Solver.Basis
import RowSweep.Proofs.Solver.Magnitudes
import RowSweep.Proofs.Multipliers.Divisor
import RowSweep.Proofs.Residual
import RowSweep.Proofs.Row.Equation
import RowSweep.Proofs.Solver.BasicSolution
import RowSweep.Proofs.Solver.Completion
import RowSweep.Proofs.Binary64.Shift
import RowSweep.Proofs.Multipliers.Shift
import RowSweep.Proofs.Solver.Scaling
import RowSweep.Proofs.Solver.Trace
import RowSweep.Proofs.Solver.Replay
import RowSweep.Proofs.Solver.FailFast
import RowSweep.Proofs.Diagnostic.Sort
import RowSweep.Proofs.Diagnostic.Verdict
import RowSweep.Proofs.Command.Reports
import RowSweep.Proofs.Sweep.WholeCombine
import RowSweep.Proofs.Thresholds.Locality
import RowSweep.Proofs.Residual.NonFinite
import RowSweep.Proofs.Solver.PivotProduct
import RowSweep.Proofs.Residual.Verdict
import RowSweep.Proofs.Sweep.Noise
import RowSweep.Proofs.RowOrder.Partition
import RowSweep.Proofs.BackSubstitution.FirstRow
import RowSweep.Proofs.Sweep.NormalForm
import RowSweep.Proofs.Diagnostic.Key
import RowSweep.Proofs.Diagnostic.Strict
import RowSweep.Proofs.NumberArray
import RowSweep.Proofs.Residual.Bands
import RowSweep.Proofs.LinearSystem
import RowSweep.Proofs.Reproduction
import RowSweep.Proofs.Diagnostic.PlainForm
import RowSweep.Proofs.Multipliers.Entries
