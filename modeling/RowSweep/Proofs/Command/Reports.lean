import RowSweep.Proofs.Command.Refusal
import RowSweep.Proofs.Diagnostic.Remarks
import RowSweep.Proofs.Diagnostic.Sort
import RowSweep.Proofs.Thresholds.Session

/-!
This module contains what the two commands report about the same files. A check reports bad inputs only, and a solve
reports these as well; but the thresholds can name the code of a bad input for a remark about a result.
-/

namespace RowSweep

open Diagnostic (inputCodes perm_sort exists_finding_of_mapM reports_of_build)

/-!
### Results
-/

namespace Solution

variable {s : Solution n} {policy : ConditionPolicy} {estimate : Option Binary64}

theorem not_mem_inputCodes_of_mem_verdictCodes (h : code ∈ s.verdictCodes) : code ∉ inputCodes := by
  have hcontradiction : ∀ k, code ∈ List.replicate k "E_SYS_INCONSISTENT" → code ∉ inputCodes := by
    intro k hmem
    rw [List.eq_of_mem_replicate hmem]
    decide
  have hsingular : ∀ code ∈ singularCodes s.status, code ∉ inputCodes := by
    unfold singularCodes
    split <;> decide
  have hresidual : ∀ code ∈ residualCodes s.status, code ∉ inputCodes := by
    unfold residualCodes
    split <;> decide
  unfold verdictCodes at h
  rw [List.mem_append] at h
  cases h with
  | inl h =>
    split at h
    next => exact hcontradiction _ h
    next =>
      split at h
      next => exact hsingular code h
      next => cases h
  | inr h => exact hresidual code h

theorem IsRated.code_of_mem_diagnostics (h : s.IsRated policy) (hwarnings : s.warnings = (policy.judge estimate).2)
    (hds : s.diagnostics = .ok ds) (hd : d ∈ ds) (hcode : d.code ∈ inputCodes) :
    d.code ∈ policy.remarkCode? estimate := by
  obtain ⟨own, hown, hcodes, -⟩ := Finding.exists_mapM_build h.builds_verdictFindings
  unfold diagnostics at hds
  rw [findings_eq_append, List.mapM_append, hown] at hds
  obtain ⟨built, hbuilt, hds⟩ := bind_eq_ok_iff.mp hds
  obtain ⟨_, ⟨⟩, hbuilt⟩ := bind_eq_ok_iff.mp hbuilt
  obtain ⟨remarks, hremarks, hbuilt⟩ := bind_eq_ok_iff.mp hbuilt
  cases hbuilt
  cases hds
  rw [(perm_sort _).mem_iff, List.mem_append] at hd
  cases hd with
  | inl hd =>
    have hmem := List.mem_map_of_mem (f := (·.code)) hd
    rw [hcodes] at hmem
    exact absurd hcode (not_mem_inputCodes_of_mem_verdictCodes hmem)
  | inr hd =>
    obtain ⟨f, hf, hbuild⟩ := exists_finding_of_mapM hremarks d hd
    obtain ⟨w, hw, rfl⟩ := List.mem_map.mp hf
    have hreports := (reports_of_build hbuild).code
    obtain ⟨message, -, hjudge⟩ := policy.exists_judge_eq estimate
    rw [hwarnings, hjudge] at hw
    obtain ⟨code, hremark, rfl⟩ := List.mem_map.mp hw
    rw [← Evidence.text.inj hreports]
    simpa using hremark

end Solution

/-!
### Reports
-/

namespace Solver

def diagnostics (s : Solver n) : List Diagnostic :=
  match s.solve.outcome with
  | .ok solution => solution.diagnostics.toOption.getD []
  | .error _ => []

def BorrowsInputCode (s : Solver n) : Prop :=
  (∃ solution, s.solve.outcome = .ok solution) ∧
    ∃ code ∈ s.thresholds.condition.remarkCode? (s.estimator n s.given.coefficients), code ∈ inputCodes

theorem exists_mem_diagnostics_iff (s : Solver n) :
    (∃ d ∈ s.diagnostics, d.code ∈ inputCodes) ↔ s.BorrowsInputCode := by
  unfold diagnostics BorrowsInputCode
  cases hsolution : s.solve.outcome with
  | error e => simp
  | ok solution =>
    have hrated := isRated_of_solve hsolution
    have hwarnings := (rates_of_solve hsolution).warnings_eq
    dsimp only
    constructor
    . intro h
      obtain ⟨d, hd, hcode⟩ := h
      cases hds : solution.diagnostics with
      | error e =>
        rw [hds] at hd
        cases hd
      | ok ds =>
        rw [hds] at hd
        exact ⟨⟨solution, rfl⟩, d.code, hrated.code_of_mem_diagnostics hwarnings hds hd hcode, hcode⟩
    . intro h
      obtain ⟨-, code, hremark, hcode⟩ := h
      have hcanonical : ∀ code ∈ inputCodes, code ∈ Catalog.canonicalCodes := by decide
      have hcodes : ∀ code' ∈ s.thresholds.condition.remarkCode? (s.estimator n s.given.coefficients),
          code' ∈ Catalog.canonicalCodes := by
        intro code' hremark'
        rw [Option.mem_unique hremark' hremark]
        exact hcanonical code hcode
      obtain ⟨ds, hds, -, hperm, -⟩ := hrated.exists_diagnostics hwarnings hcodes
      have hmem : code ∈ ds.map (·.code) := by
        rw [hperm.mem_iff, List.mem_append]
        exact Or.inr (by simpa using hremark)
      obtain ⟨d, hd, rfl⟩ := List.mem_map.mp hmem
      refine ⟨d, ?_, hcode⟩
      rw [hds]
      exact hd

end Solver

def Refusal.diagnostics : Refusal → List Diagnostic
  | input d => [d]
  | _ => []

namespace Command

def diagnostics (lib : Libraries) (c : Command) (thresholds : Option ThresholdSource) (matrix : FileContent) :
    List Diagnostic :=
  match c with
  | solve inputs _ _ =>
    match prepareSolve lib inputs thresholds matrix with
    | .error refusal => refusal.diagnostics
    | .ok (_, ⟨_, solver⟩) => solver.diagnostics
  | check inputs =>
    match prepareCheck lib inputs thresholds matrix with
    | .error refusal => refusal.diagnostics
    | .ok _ => []

section run

variable {lib : Libraries} {thresholds : Option ThresholdSource} {matrix : FileContent} {solving checking : Inputs}

theorem solve_of_refused (trace : Bool) (level : Nat)
    (h : prepareSolve lib solving thresholds matrix = .error refusal) :
    (solve solving trace level).run lib thresholds matrix = refuseSolve solving.format refusal ∧
      (solve solving trace level).diagnostics lib thresholds matrix = refusal.diagnostics := by
  unfold run diagnostics runSolve
  dsimp only
  rw [h]
  exact ⟨rfl, rfl⟩

theorem check_of_refused (h : prepareCheck lib checking thresholds matrix = .error refusal) :
    (check checking).run lib thresholds matrix = refuseCheck checking refusal ∧
      (check checking).diagnostics lib thresholds matrix = refusal.diagnostics := by
  unfold run diagnostics runCheck
  dsimp only
  rw [h]
  exact ⟨rfl, rfl⟩

theorem solve_of_ok (trace : Bool) (level : Nat)
    (h : prepareSolve lib solving thresholds matrix = .ok (chosen, made)) :
    (solve solving trace level).run lib thresholds matrix = reportSolve solving trace chosen made.2.solve ∧
      (solve solving trace level).diagnostics lib thresholds matrix = made.2.diagnostics := by
  unfold run diagnostics runSolve
  dsimp only
  rw [h]
  exact ⟨rfl, rfl⟩

theorem check_of_ok (h : prepareCheck lib checking thresholds matrix = .ok system) :
    (check checking).run lib thresholds matrix = reportCheck checking [] ∧
      (check checking).diagnostics lib thresholds matrix = [] := by
  unfold run diagnostics runCheck
  dsimp only
  rw [h]
  exact ⟨rfl, rfl⟩

end run

end Command

def Outcome.Shows (o : Outcome) (format : Format) (ds : List Diagnostic) : Prop :=
  match format with
  | .text => ∃ before after, o.output = before ++ ds.map Report.diagnosticLine ++ after
  | .json => ∃ schema fields, o.output = [Report.jsonLine schema fields] ∧
      ("diagnostics", Report.diagnosticsDocument ds) ∈ fields

namespace Command

variable {lib : Libraries} {thresholds : Option ThresholdSource} {matrix : FileContent}

theorem shows_refuseSolve (format : Format) (d : Diagnostic) : (refuseSolve format (.input d)).Shows format [d] := by
  cases format with
  | text => exact ⟨[], [], rfl⟩
  | json => exact ⟨_, _, rfl, by simp⟩

theorem shows_reportCheck (inputs : Inputs) (h : ds ≠ []) : (reportCheck inputs ds).Shows inputs.format ds := by
  unfold reportCheck Outcome.Shows
  cases inputs.format with
  | text => exact ⟨[], [], by simp [h]⟩
  | json => exact ⟨_, _, rfl, by simp⟩

theorem shows_reportSolve (inputs : Inputs) (trace : Bool) (chosen : Thresholds) {s : Solver n}
    (h : s.diagnostics ≠ []) : (reportSolve inputs trace chosen s.solve).Shows inputs.format s.diagnostics := by
  unfold Solver.diagnostics at h ⊢
  unfold reportSolve
  cases hsolution : s.solve.outcome with
  | error e =>
    rw [hsolution] at h
    exact absurd rfl h
  | ok solution =>
    cases hds : solution.diagnostics with
    | error e =>
      rw [hsolution] at h
      simp only [hds] at h
      exact absurd rfl h
    | ok ds =>
      simp only [hds]
      unfold Outcome.Shows
      cases inputs.format with
      | text => exact ⟨_, _, rfl⟩
      | json => exact ⟨_, _, rfl, by simp [Except.toOption]⟩

theorem shows_run (c : Command) (h : c.diagnostics lib thresholds matrix ≠ []) :
    (c.run lib thresholds matrix).Shows c.sources.format (c.diagnostics lib thresholds matrix) := by
  cases c with
  | solve inputs trace level =>
    cases hprepared : prepareSolve lib inputs thresholds matrix with
    | error refusal =>
      obtain ⟨hrun, hdiagnostics⟩ := solve_of_refused trace level hprepared
      rw [hdiagnostics] at h ⊢
      rw [hrun]
      cases refusal with
      | config code message => exact absurd rfl h
      | crash cause => exact absurd rfl h
      | input d => exact shows_refuseSolve inputs.format d
    | ok prepared =>
      obtain ⟨hrun, hdiagnostics⟩ := solve_of_ok trace level hprepared
      rw [hdiagnostics] at h ⊢
      rw [hrun]
      exact shows_reportSolve inputs trace prepared.1 h
  | check inputs =>
    cases hprepared : prepareCheck lib inputs thresholds matrix with
    | error refusal =>
      obtain ⟨hrun, hdiagnostics⟩ := check_of_refused hprepared
      rw [hdiagnostics] at h ⊢
      rw [hrun]
      cases refusal with
      | config code message => exact absurd rfl h
      | crash cause => exact absurd rfl h
      | input d => exact shows_reportCheck inputs h
    | ok system =>
      rw [(check_of_ok hprepared).right] at h
      exact absurd rfl h

section refusals

variable {solving checking : Inputs} {trace : Bool} {level : Nat}

theorem prepareCheck_of_mem_diagnostics (h : checked ∈ (check checking).diagnostics lib thresholds matrix) :
    prepareCheck lib checking thresholds matrix = .error (.input checked) := by
  cases hprepared : prepareCheck lib checking thresholds matrix with
  | error refusal =>
    rw [(check_of_refused hprepared).right] at h
    cases refusal with
    | config code message => cases h
    | crash cause => cases h
    | input d => rw [List.mem_singleton.mp h]
  | ok system =>
    rw [(check_of_ok hprepared).right] at h
    cases h

theorem exitCode_refuseCheck {checked : Diagnostic} (h : checked.severity = .error) :
    (refuseCheck checking (.input checked)).exitCode = 2 := by
  show checkExitCode [checked] = 2
  simp [checkExitCode, h]

theorem refused_of_mem_diagnostics (hfile : checking.matrixFile = solving.matrixFile)
    (h : checked ∈ (check checking).diagnostics lib thresholds matrix) :
    ∃ solved, prepareSolve lib solving thresholds matrix = .error (.input solved) ∧ solved.IsRefusal checked := by
  have halike := preparesAlike lib thresholds matrix hfile
  rw [prepareCheck_of_mem_diagnostics h] at halike
  generalize prepareSolve lib solving thresholds matrix = prepared at halike
  cases halike with
  | refused agrees =>
    cases agrees with
    | input refusal => exact ⟨_, rfl, refusal⟩

theorem thresholds_of_prepareSolve {n : Nat} {solver : Solver n}
    (h : prepareSolve lib solving thresholds matrix = .ok (chosen, ⟨n, solver⟩)) :
    solver.thresholds = chosen ∧ ∃ rows, load lib solving thresholds matrix = .ok (chosen, rows) := by
  unfold prepareSolve at h
  obtain ⟨⟨chosen', rows⟩, hload, h⟩ := bind_eq_ok_iff.mp h
  obtain ⟨made, hmade, h⟩ := bind_eq_ok_iff.mp h
  unfold Solver.ofDocument at hmade
  obtain ⟨system, -, hmade⟩ := bind_eq_ok_iff.mp (mapError_eq_ok_iff.mp hmade)
  obtain ⟨estimator, -, hmade⟩ := bind_eq_ok_iff.mp hmade
  cases hmade
  cases h
  exact ⟨rfl, rows, hload⟩

theorem exists_mem_diagnostics_iff (lib : Libraries) (thresholds : Option ThresholdSource) (matrix : FileContent)
    (trace : Bool) (level : Nat) (hfile : checking.matrixFile = solving.matrixFile) :
    (∃ d ∈ (solve solving trace level).diagnostics lib thresholds matrix, d.code ∈ inputCodes) ↔
      (∃ d ∈ (check checking).diagnostics lib thresholds matrix, d.code ∈ inputCodes) ∨
        ∃ chosen n solver, prepareSolve lib solving thresholds matrix = .ok (chosen, ⟨n, solver⟩) ∧
          solver.BorrowsInputCode := by
  have halike := preparesAlike lib thresholds matrix hfile
  cases hprepared : prepareSolve lib solving thresholds matrix with
  | error refusal =>
    rw [(solve_of_refused trace level hprepared).right]
    rw [hprepared] at halike
    cases hfound : prepareCheck lib checking thresholds matrix with
    | error refusal' =>
      rw [hfound] at halike
      rw [(check_of_refused hfound).right]
      cases halike with
      | refused agrees =>
        cases agrees with
        | config => simp [Refusal.diagnostics]
        | crash => simp [Refusal.diagnostics]
        | input refusal => simp [Refusal.diagnostics, refusal.code]
    | ok system =>
      rw [hfound] at halike
      rw [(check_of_ok hfound).right]
      cases halike
      simp [Refusal.diagnostics, Refusal.ofSetup]
  | ok prepared =>
    obtain ⟨chosen, n, solver⟩ := prepared
    rw [(solve_of_ok trace level hprepared).right, solver.exists_mem_diagnostics_iff]
    constructor
    . exact fun h => Or.inr ⟨chosen, n, solver, rfl, h⟩
    . intro h
      cases h with
      | inl h =>
        obtain ⟨checked, hchecked, -⟩ := h
        obtain ⟨solved, hsolved, -⟩ := refused_of_mem_diagnostics hfile hchecked
        rw [hprepared] at hsolved
        cases hsolved
      | inr h =>
        obtain ⟨chosen', n', solver', heq, h⟩ := h
        cases heq
        exact h

theorem not_borrowsInputCode (h : prepareSolve lib solving thresholds matrix = .ok (chosen, ⟨n, solver⟩))
    (hcodes : ∀ chosen rows, load lib solving thresholds matrix = .ok (chosen, rows) →
      chosen.condition.unavailableCode ∉ inputCodes ∧ chosen.condition.illConditionedCode ∉ inputCodes) :
    ¬ solver.BorrowsInputCode := by
  intro hborrows
  obtain ⟨-, code, hremark, hcode⟩ := hborrows
  obtain ⟨hthresholds, rows, hload⟩ := thresholds_of_prepareSolve h
  obtain ⟨hunavailable, hillConditioned⟩ := hcodes chosen rows hload
  rw [hthresholds] at hremark
  exact ConditionPolicy.forall_mem_remarkCode? (P := (· ∉ inputCodes)) hunavailable hillConditioned code hremark hcode

theorem refused_of_rejected (solving checking : Inputs) {source : ThresholdSource} (hsource : source ∈ thresholds)
    (h : Thresholds.load lib.yaml source.name source.content = .error (.rejected fault)) :
    prepareSolve lib solving thresholds matrix = .error (.config fault.code fault.message) ∧
      prepareCheck lib checking thresholds matrix = .error (.config fault.code fault.message) := by
  have hload : ∀ inputs, load lib inputs thresholds matrix = .error (.config fault.code fault.message) := by
    intro inputs
    cases hsource
    unfold load
    simp only [h]
    rfl
  unfold prepareSolve prepareCheck
  rw [hload, hload]
  exact ⟨rfl, rfl⟩

theorem refusal_of_exitCode (hfile : checking.matrixFile = solving.matrixFile)
    (h : ((check checking).run lib thresholds matrix).exitCode = 0)
    (hrefused : prepareSolve lib solving thresholds matrix = .error refusal) :
    ∃ id, refusal = .ofSetup "cli.solve" (.unsupportedEstimator id) := by
  have halike := preparesAlike lib thresholds matrix hfile
  rw [hrefused] at halike
  cases hfound : prepareCheck lib checking thresholds matrix with
  | error refusal' =>
    rw [(check_of_refused hfound).left] at h
    rw [hfound] at halike
    cases halike with
    | refused agrees =>
      cases agrees with
      | config => cases h
      | crash => cases h
      | input refusal =>
        rw [exitCode_refuseCheck (refusal.severity.trans refusal.severity_eq)] at h
        cases h
  | ok system =>
    rw [hfound] at halike
    cases halike with
    | estimator id => exact ⟨id, rfl⟩

end refusals

end Command

theorem refusal_of_commands (lib : Libraries) (file : Path) (thresholdsFile thresholdsFile' : Option Path)
    (format format' : Format) (trace : Bool) (level : Nat) (thresholds : Option ThresholdSource)
    (matrix : FileContent) :
    let solving : Inputs := ⟨file, thresholdsFile, format⟩
    let checking : Inputs := ⟨file, thresholdsFile', format'⟩
    let solve := Command.solve solving trace level
    let check := Command.check checking
    (∀ checked ∈ check.diagnostics lib thresholds matrix, ∃ solved,
      check.diagnostics lib thresholds matrix = [checked] ∧ solve.diagnostics lib thresholds matrix = [solved] ∧
      solved.IsRefusal checked ∧
      solve.run lib thresholds matrix = Command.refuseSolve format (.input solved) ∧
      check.run lib thresholds matrix = Command.refuseCheck checking (.input checked) ∧
      (solve.run lib thresholds matrix).exitCode = 2 ∧ (check.run lib thresholds matrix).exitCode = 2) ∧
    (((∃ d ∈ solve.diagnostics lib thresholds matrix, d.code ∈ inputCodes) ↔
        ∃ d ∈ check.diagnostics lib thresholds matrix, d.code ∈ inputCodes) ↔
      ¬ ∃ chosen n solver, Command.prepareSolve lib solving thresholds matrix = .ok (chosen, ⟨n, solver⟩) ∧
        solver.BorrowsInputCode) ∧
    ((∀ chosen rows, Command.load lib solving thresholds matrix = .ok (chosen, rows) →
        chosen.condition.unavailableCode ∉ inputCodes ∧ chosen.condition.illConditionedCode ∉ inputCodes) →
      ((∃ d ∈ solve.diagnostics lib thresholds matrix, d.code ∈ inputCodes) ↔
        ∃ d ∈ check.diagnostics lib thresholds matrix, d.code ∈ inputCodes)) ∧
    (∀ source ∈ thresholds, ∀ fault, Thresholds.load lib.yaml source.name source.content = .error (.rejected fault) →
      solve.run lib thresholds matrix = .configError fault.code fault.message ∧
      check.run lib thresholds matrix = .configError fault.code fault.message ∧
      (solve.run lib thresholds matrix).exitCode = 2) ∧
    ((check.run lib thresholds matrix).exitCode = 0 → ∀ refusal,
      Command.prepareSolve lib solving thresholds matrix = .error refusal →
      ∃ id, refusal = .ofSetup "cli.solve" (.unsupportedEstimator id)) := by
  intro solving checking solve check
  have hfile : checking.matrixFile = solving.matrixFile := rfl
  have hsolves := Command.exists_mem_diagnostics_iff lib thresholds matrix trace level hfile
  refine ⟨?_, ?_, ?_, ?_, fun h refusal => Command.refusal_of_exitCode hfile h⟩
  . intro checked hchecked
    obtain ⟨solved, hsolved, hrefusal⟩ := Command.refused_of_mem_diagnostics hfile hchecked
    have hfound := Command.prepareCheck_of_mem_diagnostics hchecked
    obtain ⟨hsolve, hsolveDiagnostics⟩ := Command.solve_of_refused trace level hsolved
    obtain ⟨hcheck, hcheckDiagnostics⟩ := Command.check_of_refused hfound
    refine ⟨solved, hcheckDiagnostics, hsolveDiagnostics, hrefusal, hsolve, hcheck, ?_, ?_⟩
    . rw [hsolve]
      rfl
    . rw [hcheck]
      exact Command.exitCode_refuseCheck (hrefusal.severity.trans hrefusal.severity_eq)
  . rw [hsolves]
    constructor
    . rintro hagree ⟨chosen, n, solver, hprepared, hborrows⟩
      obtain ⟨checked, hchecked, -⟩ := hagree.mp (Or.inr ⟨chosen, n, solver, hprepared, hborrows⟩)
      obtain ⟨solved, hsolved, -⟩ := Command.refused_of_mem_diagnostics hfile hchecked
      rw [hprepared] at hsolved
      cases hsolved
    . exact fun hnone => or_iff_left hnone
  . intro hcodes
    rw [hsolves]
    apply or_iff_left
    rintro ⟨chosen, n, solver, hprepared, hborrows⟩
    exact Command.not_borrowsInputCode hprepared hcodes hborrows
  . intro source hsource fault hfault
    obtain ⟨hsolve, hcheck⟩ := Command.refused_of_rejected solving checking hsource hfault
    rw [(Command.solve_of_refused trace level hsolve).left, (Command.check_of_refused hcheck).left]
    exact ⟨rfl, rfl, rfl⟩

theorem Command.eq_default_of_load {lib : Libraries} {inputs : Inputs} {matrix : FileContent}
    (h : load lib inputs none matrix = .ok (chosen, rows)) : chosen = .default := by
  obtain ⟨chosen', hchosen, h⟩ := bind_eq_ok_iff.mp h
  obtain ⟨rows', -, h⟩ := bind_eq_ok_iff.mp h
  have hfirst := (Prod.mk.inj (Except.ok.inj h)).left
  exact hfirst.symm.trans (Except.ok.inj hchosen).symm

def matrixOnly : Inputs where
  matrixFile := .ofText "m.json"
  thresholdsFile := none
  format := .json

theorem refusal_of_missingConstant :
    let lib := Libraries.standard
    let solve := Command.solve matrixOnly true 0
    let check := Command.check matrixOnly
    let matrix := FileContent.text "[[1]]"
    ∃ solved checked, solve.diagnostics lib none matrix = [solved] ∧ check.diagnostics lib none matrix = [checked] ∧
      solved.IsRefusal checked ∧ checked.code = "E_INPUT_SHAPE_INVALID" ∧ (solve.run lib none matrix).exitCode = 2 ∧
      (check.run lib none matrix).exitCode = 2 ∧ ∃ d ∈ solve.diagnostics lib none matrix, d.code ∈ inputCodes := by
  intro lib solve check matrix
  obtain ⟨hchecked, -, hcodes, -, -⟩ :=
    refusal_of_commands lib matrixOnly.matrixFile none none .json .json true 0 none matrix
  have hcode : (check.diagnostics lib none matrix).map (·.code) = ["E_INPUT_SHAPE_INVALID"] := by
    decide +kernel
  obtain ⟨checked, hdiagnostics, hcode⟩ := List.map_eq_singleton_iff.mp hcode
  have hmem : checked ∈ check.diagnostics lib none matrix := by
    rw [hdiagnostics]
    exact List.mem_singleton_self _
  obtain ⟨solved, -, hsolved, hrefusal, -, -, hsolveExit, hcheckExit⟩ := hchecked checked hmem
  have hdefault : ∀ chosen rows, Command.load lib matrixOnly none matrix = .ok (chosen, rows) →
      chosen.condition.unavailableCode ∉ inputCodes ∧ chosen.condition.illConditionedCode ∉ inputCodes := by
    intro chosen rows hload
    rw [Command.eq_default_of_load hload]
    decide
  refine ⟨solved, checked, hsolved, hdiagnostics, hrefusal, hcode, hsolveExit, hcheckExit, ?_⟩
  apply (hcodes hdefault).mpr
  exact ⟨checked, hmem, by rw [hcode]; decide⟩

/-!
### Diagnostics under borrowed codes
-/

theorem Command.prepare_of_ok {lib : Libraries} {inputs : Inputs} {source : ThresholdSource} {matrix : FileContent}
    (hchosen : Thresholds.load lib.yaml source.name source.content = .ok chosen)
    (hrows : MatrixFile.load lib inputs.matrixFile matrix = .ok rows)
    (hmade : Solver.ofDocument lib rows chosen none none = .ok made)
    (hfound : LinearSystem.ofDocument lib.complaint rows chosen.expectedUnknowns = .ok system) :
    prepareSolve lib inputs (some source) matrix = .ok (chosen, made) ∧
      prepareCheck lib inputs (some source) matrix = .ok system := by
  have hload : load lib inputs (some source) matrix = .ok (chosen, rows) := by
    unfold load
    simp only [hchosen, hrows]
    rfl
  unfold prepareSolve prepareCheck
  rw [hload]
  simp only [bind, Except.bind, hmade, hfound]
  exact ⟨rfl, rfl⟩

def borrowedCode : ThresholdSource where
  name := "t.yaml"
  content := .text strictFile

def singleCell : Inputs where
  matrixFile := .ofText "m.json"
  thresholdsFile := some (.ofText "t.yaml")
  format := .text

theorem prepare_singleCell :
    ∃ made system,
      Command.prepareSolve .standard singleCell (some borrowedCode) (.text "[[1,1]]") = .ok (strictThresholds, made) ∧
      Command.prepareCheck .standard singleCell (some borrowedCode) (.text "[[1,1]]") = .ok system ∧
      made.2.diagnostics.map (·.code) = ["E_INPUT_NONFINITE"] ∧
      (Command.reportSolve singleCell false strictThresholds made.2.solve).exitCode = 0 := by
  have hread : ((MatrixFile.load .standard singleCell.matrixFile (.text "[[1,1]]")).map fun rows =>
      (((Solver.ofDocument .standard rows strictThresholds none none).map fun made =>
        (made.2.diagnostics.map (·.code),
          (Command.reportSolve singleCell false strictThresholds made.2.solve).exitCode)).toOption,
        (LinearSystem.ofDocument Libraries.standard.complaint rows none).isOk)) =
      .ok (some (["E_INPUT_NONFINITE"], 0), true) := by
    decide +kernel
  obtain ⟨rows, hrows, hresult⟩ := map_eq_ok_iff.mp hread
  obtain ⟨hsolver, hsystem⟩ := Prod.mk.inj hresult
  cases hmade : Solver.ofDocument .standard rows strictThresholds none none with
  | error e =>
    rw [hmade] at hsolver
    cases hsolver
  | ok made =>
    cases hfound : LinearSystem.ofDocument Libraries.standard.complaint rows none with
    | error e =>
      rw [hfound] at hsystem
      cases hsystem
    | ok system =>
      rw [hmade] at hsolver
      obtain ⟨hcodes, hexit⟩ := Prod.mk.inj (Option.some.inj hsolver)
      have hchosen :
          Thresholds.load Libraries.standard.yaml borrowedCode.name borrowedCode.content = .ok strictThresholds :=
        load_strictFile
      obtain ⟨hsolve, hcheck⟩ := Command.prepare_of_ok hchosen hrows hmade hfound
      exact ⟨made, system, hsolve, hcheck, hcodes, hexit⟩

theorem not_refusal_of_commands :
    let lib := Libraries.standard
    let solve := Command.solve singleCell false 0
    let check := Command.check singleCell
    let matrix := FileContent.text "[[1,1]]"
    "E_INPUT_NONFINITE" ∈ inputCodes ∧
      (solve.diagnostics lib (some borrowedCode) matrix).map (·.code) = ["E_INPUT_NONFINITE"] ∧
      (solve.run lib (some borrowedCode) matrix).exitCode = 0 ∧ check.diagnostics lib (some borrowedCode) matrix = [] ∧
      (check.run lib (some borrowedCode) matrix).output = ["OK matrix=m.json"] ∧
      (check.run lib (some borrowedCode) matrix).exitCode = 0 := by
  -- The check finds nothing, and the solve ends well, but it reports the code of a bad input.
  intro lib solve check matrix
  obtain ⟨made, system, hsolve, hcheck, hcodes, hexit⟩ := prepare_singleCell
  obtain ⟨hsolveRun, hsolveDiagnostics⟩ := Command.solve_of_ok false 0 hsolve
  obtain ⟨hcheckRun, hcheckDiagnostics⟩ := Command.check_of_ok hcheck
  rw [hsolveRun, hsolveDiagnostics, hcheckRun, hcheckDiagnostics]
  exact ⟨by decide, hcodes, hexit, rfl, by decide +kernel, rfl⟩

end RowSweep
