import RowSweep.Command.Run
import RowSweep.Proofs.Diagnostic.Catalogued

/-!
This module contains how the two commands turn down an input. They read the same files, but one of them looks at the
system itself and the other one leaves this to the making of its solver.
-/

namespace RowSweep

def Diagnostic.inputCodes : List String :=
  ["E_INPUT_SHAPE_INVALID", "E_INPUT_NONFINITE", "E_INPUT_SIZE_MISMATCH", "E_CLI_MATRIX_LOAD_FAILED"]

/--
Whether a solve and a check report the same input as bad. Where the file could be read, each names itself as the source.
-/
structure Diagnostic.IsRefusal (solved checked : Diagnostic) : Prop where
  code_mem : solved.code ∈ inputCodes
  severity_eq : solved.severity = .error
  code : checked.code = solved.code
  severity : checked.severity = solved.severity
  message : checked.message = solved.message
  action : checked.action = solved.action
  stage : checked.stage = solved.stage
  position : checked.position = solved.position
  witness : checked.witness = solved.witness
  source : (solved.source = some "cli.loader" ∧ checked.source = some "cli.loader") ∨
    (solved.source = some "cli.solve" ∧ checked.source = some "cli.check")

open Diagnostic (inputCodes build_eq_catalogued)

theorem Catalog.exists_entry_of_mem (h : code ∈ inputCodes) :
    ∃ entry, canonical.find? code = some entry ∧ entry.code = code ∧ entry.severity = .error := by
  have hseverity : ∀ code ∈ inputCodes, severity? code = some .error := by decide
  obtain ⟨entry, hentry, hseverity⟩ := Option.map_eq_some_iff.mp (hseverity code h)
  exact ⟨entry, hentry, code_of_find? hentry, hseverity⟩

namespace MatrixFault

theorem exists_diagnostic (fault : MatrixFault) (file : Path) :
    ∃ d, fault.diagnostic file = .ok d ∧ d.IsRefusal d := by
  have hmem : "E_CLI_MATRIX_LOAD_FAILED" ∈ inputCodes := by decide
  obtain ⟨entry, hentry, hcode, hseverity⟩ := Catalog.exists_entry_of_mem hmem
  obtain ⟨witness, hwitness⟩ := Evidence.exists_witness_mapping
    [("matrix_file", .text file.text), ("error_type", .text errorType)] (by simp [Evidence.plain])
  have hmessage : "matrix loader failed: " ++ fault.shown file ≠ "" := by simp
  rw [← hcode] at hmem
  refine ⟨_, build_eq_catalogued none hentry hmessage (by decide) hwitness, ?_⟩
  exact ⟨hmem, hseverity, rfl, rfl, rfl, rfl, rfl, rfl, rfl, Or.inl ⟨rfl, rfl⟩⟩

end MatrixFault

namespace InputFault

theorem message_ne (fault : InputFault) : fault.message ≠ "" := by
  unfold message
  split
  next => simp [toString]
  next => simp [toString]
  next => simp [toString]
  next => simp [toString]
  next => decide

theorem code_mem (fault : InputFault) : fault.code ∈ inputCodes := by
  unfold code
  split <;> decide

theorem exists_diagnostics (fault : InputFault) :
    ∃ solved checked, fault.diagnostic "cli.solve" = .ok solved ∧ fault.diagnostic "cli.check" = .ok checked ∧
      solved.IsRefusal checked := by
  have hmem := fault.code_mem
  obtain ⟨entry, hentry, hcode, hseverity⟩ := Catalog.exists_entry_of_mem hmem
  obtain ⟨witness, hwitness⟩ := Evidence.exists_witness_single "shape" (Evidence.exists_plain_integers fault.shape)
  rw [← hcode] at hmem
  refine ⟨_, _, build_eq_catalogued none hentry fault.message_ne (by decide) hwitness,
    build_eq_catalogued none hentry fault.message_ne (by decide) hwitness, ?_⟩
  exact ⟨hmem, hseverity, rfl, rfl, rfl, rfl, rfl, rfl, rfl, Or.inr ⟨rfl, rfl⟩⟩

end InputFault

namespace Refusal

inductive Agrees : Refusal → Refusal → Prop where
  | config : Agrees (.config code message) (.config code message)
  | input (refusal : solved.IsRefusal checked) : Agrees (.input solved) (.input checked)
  | crash : Agrees (.crash cause) (.crash cause)

theorem agrees_ofLoad (e : LoadError) : (ofLoad e).Agrees (ofLoad e) := by
  cases e with
  | rejected fault => exact .config
  | breakdown cause => exact .crash

theorem agrees_ofMatrix (file : Path) (e : MatrixError) : (ofMatrix file e).Agrees (ofMatrix file e) := by
  cases e with
  | rejected fault =>
    obtain ⟨d, hd, hrefusal⟩ := fault.exists_diagnostic file
    simp only [ofMatrix, hd, ofBuild]
    exact .input hrefusal
  | breakdown cause => exact .crash

theorem agrees_ofInput (e : InputError) : (ofInput "cli.solve" e).Agrees (ofInput "cli.check" e) := by
  cases e with
  | rejected fault =>
    obtain ⟨solved, checked, hsolved, hchecked, hrefusal⟩ := fault.exists_diagnostics
    simp only [ofInput, hsolved, hchecked, ofBuild]
    exact .input hrefusal
  | outOfRange => exact .crash

end Refusal

namespace Command

inductive PreparesAlike : Except Refusal (Thresholds × Σ n, Solver n) → Except Refusal LinearSystem → Prop where
  | refused (agrees : refusal.Agrees refusal') : PreparesAlike (.error refusal) (.error refusal')
  | estimator (id : String) : PreparesAlike (.error (.ofSetup "cli.solve" (.unsupportedEstimator id))) (.ok system)
  | system :
    PreparesAlike (.ok (thresholds, ⟨system.size, .ofSystem system thresholds numerics estimator⟩)) (.ok system)

variable {lib : Libraries} {inputs inputs' : Inputs}

theorem load_congr (h : inputs'.matrixFile = inputs.matrixFile) :
    load lib inputs' thresholds matrix = load lib inputs thresholds matrix := by
  unfold load
  rw [h]

theorem agrees_of_rows {chosen : Thresholds} {refusal : Refusal} (h : (do
      let rows ← (MatrixFile.load lib file matrix).mapError (Refusal.ofMatrix file)
      return (chosen, rows)) = Except.error refusal) : refusal.Agrees refusal := by
  cases bind_eq_error_iff.mp h with
  | inl hrows =>
    obtain ⟨e, -, rfl⟩ := mapError_eq_error_iff.mp hrows
    exact Refusal.agrees_ofMatrix _ e
  | inr h =>
    obtain ⟨rows, -, h⟩ := h
    cases h

theorem agrees_of_load (h : load lib inputs thresholds matrix = .error refusal) : refusal.Agrees refusal := by
  unfold load at h
  cases thresholds with
  | none => exact agrees_of_rows h
  | some source =>
    cases bind_eq_error_iff.mp h with
    | inl hchosen =>
      obtain ⟨e, -, rfl⟩ := mapError_eq_error_iff.mp hchosen
      exact Refusal.agrees_ofLoad e
    | inr h =>
      obtain ⟨chosen, -, h⟩ := h
      exact agrees_of_rows h

theorem preparesAlike (lib : Libraries) (thresholds : Option ThresholdSource) (matrix : FileContent)
    (h : inputs'.matrixFile = inputs.matrixFile) :
    PreparesAlike (prepareSolve lib inputs thresholds matrix) (prepareCheck lib inputs' thresholds matrix) := by
  unfold prepareSolve prepareCheck
  rw [load_congr h]
  cases hload : load lib inputs thresholds matrix with
  | error refusal => exact .refused (agrees_of_load hload)
  | ok loaded =>
    obtain ⟨chosen, rows⟩ := loaded
    simp only [bind, Except.bind, Solver.ofDocument, Option.none_or, Solver.resolveEstimator]
    cases hsystem : LinearSystem.ofDocument lib.complaint rows chosen.expectedUnknowns with
    | error e => exact .refused (Refusal.agrees_ofInput e)
    | ok system =>
      by_cases hknown : chosen.condition.estimatorId = ConditionPolicy.builtinEstimatorId
      . simp only [Except.mapError, hknown, if_true]
        exact .system
      . simp only [Except.mapError, hknown, if_false]
        exact .estimator _

end Command

end RowSweep
