import RowSweep.Command.Arguments
import RowSweep.Command.MatrixFile
import RowSweep.Command.Report
import RowSweep.Text.ControlSequence
import RowSweep.Thresholds.Store

/-!
This module contains the running of commands: what they print and log and how they end, given the files
they read. Both commands turn down the same inputs, and in the same way.
-/

namespace RowSweep

inductive Crash where
  | breakdown (cause : Breakdown)
  | solve (error : SolveError)
  | diagnostic (error : BuildError)
  deriving DecidableEq

structure Outcome where
  exitCode : Nat
  output : List String := []
  log : List Notice := []
  crash : Option Crash := none

namespace Outcome

def usage : Outcome :=
  { exitCode := 2 }

def crashed (crash : Crash) (log : List Notice) : Outcome :=
  { exitCode := 1, log := log, crash := some crash }

def configError (code message : String) : Outcome :=
  { exitCode := 2, output := [s!"config error: {code}: {message}"] }

def printed (o : Outcome) : List String :=
  o.output.map fun line => String.ofList (Text.dropControlSequences line.toList)

def logLines (level : Nat) (o : Outcome) : List String :=
  (o.log.filter (level ≤ ·.level)).map Notice.line

end Outcome

structure ThresholdSource where
  name : String
  content : FileContent

inductive Refusal where
  | config (code message : String)
  | input (diagnostic : Diagnostic)
  | crash (crash : Crash)

namespace Refusal

def ofBuild (diagnostic : Except BuildError Diagnostic) : Refusal :=
  match diagnostic with
  | .ok d => input d
  | .error e => crash (.diagnostic e)

def ofLoad : LoadError → Refusal
  | .rejected fault => config fault.code fault.message
  | .breakdown cause => crash (.breakdown cause)

def ofMatrix (file : Path) : MatrixError → Refusal
  | .rejected fault => ofBuild (fault.diagnostic file)
  | .breakdown cause => crash (.breakdown cause)

def ofInput (source : String) : InputError → Refusal
  | .rejected fault => ofBuild (fault.diagnostic source)
  | .outOfRange => crash (.breakdown .outOfRange)

def ofSetup (source : String) : SetupError → Refusal
  | .input e => ofInput source e
  | .unsupportedEstimator id =>
    config "E_SOLVER_CONFIG_INVALID" s!"unsupported condition estimator id '{id}'"

end Refusal

namespace Command

variable (lib : Libraries)

def load (inputs : Inputs) (thresholds : Option ThresholdSource) (matrix : FileContent) :
    Except Refusal (Thresholds × Document) := do
  let thresholds ← match thresholds with
    | some source => (Thresholds.load lib.yaml source.name source.content).mapError .ofLoad
    | none => pure .default
  let rows ← (MatrixFile.load lib inputs.matrixFile matrix).mapError (.ofMatrix inputs.matrixFile)
  return (thresholds, rows)

def prepareSolve (inputs : Inputs) (thresholds : Option ThresholdSource) (matrix : FileContent) :
    Except Refusal (Thresholds × Σ n, Solver n) := do
  let (thresholds, rows) ← load lib inputs thresholds matrix
  let solver ← (Solver.ofDocument lib rows thresholds none none).mapError (.ofSetup "cli.solve")
  return (thresholds, solver)

def refuseSolve (format : Format) : Refusal → Outcome
  | .config code message => .configError code message
  | .input d =>
    { exitCode := 2
      output := match format with
        | .json => [Report.refusalJson [d]]
        | .text => [Report.diagnosticLine d] }
  | .crash crash => .crashed crash []

def reportSolve (inputs : Inputs) (trace : Bool) (thresholds : Thresholds) (run : Solver.Run n) :
    Outcome :=
  match run.outcome with
  | .error e => .crashed (.solve e) run.notices
  | .ok solution =>
    match solution.diagnostics with
    | .error e => .crashed (.diagnostic e) run.notices
    | .ok ds =>
      { exitCode := solution.exitCode
        output := match inputs.format with
          | .json => [Report.solveJson inputs.matrixFile thresholds solution ds trace]
          | .text => Report.solveLines solution ds trace
        log := run.notices ++ [.finished solution.kind] }

def runSolve (inputs : Inputs) (trace : Bool) (thresholds : Option ThresholdSource)
    (matrix : FileContent) : Outcome :=
  match prepareSolve lib inputs thresholds matrix with
  | .error refusal => refuseSolve inputs.format refusal
  | .ok (thresholds, ⟨_, solver⟩) => reportSolve inputs trace thresholds solver.solve

def prepareCheck (inputs : Inputs) (thresholds : Option ThresholdSource) (matrix : FileContent) :
    Except Refusal LinearSystem := do
  let (thresholds, rows) ← load lib inputs thresholds matrix
  (LinearSystem.ofDocument lib.complaint rows thresholds.expectedUnknowns).mapError (.ofInput "cli.check")

def reportCheck (inputs : Inputs) (ds : List Diagnostic) : Outcome where
  exitCode := checkExitCode ds
  output := match inputs.format with
    | .json => [Report.checkJson inputs.matrixFile ds]
    | .text =>
      if ds.isEmpty then [s!"OK matrix={inputs.matrixFile.text}"] else ds.map Report.diagnosticLine

def refuseCheck (inputs : Inputs) : Refusal → Outcome
  | .config code message => .configError code message
  | .input d => reportCheck inputs [d]
  | .crash crash => .crashed crash []

def runCheck (inputs : Inputs) (thresholds : Option ThresholdSource) (matrix : FileContent) : Outcome :=
  match prepareCheck lib inputs thresholds matrix with
  | .error refusal => refuseCheck inputs refusal
  | .ok _ => reportCheck inputs []

def run (c : Command) (thresholds : Option ThresholdSource) (matrix : FileContent) : Outcome :=
  match c with
  | solve inputs trace _ => runSolve lib inputs trace thresholds matrix
  | check inputs => runCheck lib inputs thresholds matrix

def level : Command → Nat
  | solve _ _ level => level
  | check _ => 0

def runIn (c : Command) (directory : Path) (folder : Folder) : Outcome :=
  let source := c.sources.thresholdsFile.map fun file =>
    let full := file.resolve directory
    ⟨full.text, folder.visitFrom directory full⟩
  c.run lib source (folder.visit c.sources.matrixFile)

end Command

end RowSweep
