import RowSweep.Proofs.Diagnostic.Verdict
import RowSweep.Proofs.Solver.Completion
import RowSweep.Proofs.Thresholds.Soundness

/-!
This module contains when a solution has diagnostics. All its findings have codes of the catalog, except for the remark
about the condition: its code is a text of the thresholds, and reading them asks of it nothing but that it is not empty.
-/

namespace RowSweep

namespace Catalog

def canonicalCodes : List String :=
  canonical.entries.map (·.code)

theorem isSome_severity?_iff {code : String} : (severity? code).isSome = true ↔ code ∈ canonicalCodes := by
  simp [severity?, find?, canonicalCodes]

theorem find?_eq_none_iff {code : String} : canonical.find? code = none ↔ code ∉ canonicalCodes := by
  simp [find?, canonicalCodes]

end Catalog

namespace ConditionPolicy

def remarkCode? (policy : ConditionPolicy) (estimate : Option Binary64) : Option String :=
  match estimate.filter (·.isFinite) with
  | none => some policy.unavailableCode
  | some indicator => if indicator.le policy.warnMax then some policy.illConditionedCode else none

variable {policy : ConditionPolicy} {estimate : Option Binary64}

theorem forall_mem_remarkCode? {P : String → Prop} (hunavailable : P policy.unavailableCode)
    (hillConditioned : P policy.illConditionedCode) : ∀ code ∈ policy.remarkCode? estimate, P code := by
  unfold remarkCode?
  split
  next => simp [hunavailable]
  next =>
    split
    next => simp [hillConditioned]
    next => nofun

theorem exists_judge_eq (policy : ConditionPolicy) (estimate : Option Binary64) :
    ∃ message, message ≠ "" ∧
      (policy.judge estimate).2 = (policy.remarkCode? estimate).toList.map fun code => ⟨code, message⟩ := by
  unfold judge remarkCode?
  cases estimate.filter (·.isFinite) with
  | none => exact ⟨"condition indicator unavailable", by decide, rfl⟩
  | some indicator =>
    dsimp only
    split
    next =>
      refine ⟨_, ?_, rfl⟩
      simp [toString]
    next => exact ⟨"condition indicator unavailable", by decide, rfl⟩

end ConditionPolicy

namespace Diagnostic

theorem build_eq_unknownCode {code message source : String} (row : Option Nat) (e : Evidence) (hcode : code ≠ "")
    (hunknown : code ∉ Catalog.canonicalCodes) (hmessage : message ≠ "") (hsource : source ≠ "") :
    build { code := .text code, message := .text message, source := .text source, row := .ofIndex? row, witness := e } =
      .error (.unknownCode code "severity") := by
  have hfind := Catalog.find?_eq_none_iff.mpr hunknown
  simp [build, Evidence.isFilled, Evidence.label?, hcode, hmessage, hsource, hfind, resolve, bind, Except.bind]

end Diagnostic

namespace Solution

variable {s : Solution n} {policy : ConditionPolicy} {estimate : Option Binary64}

theorem builds_warningFindings_of_mem (hwarnings : s.warnings = (policy.judge estimate).2)
    (hcodes : ∀ code ∈ policy.remarkCode? estimate, code ∈ Catalog.canonicalCodes) :
    List.Forall₂ Finding.Builds s.warningFindings (policy.remarkCode? estimate).toList := by
  obtain ⟨message, hmessage, hjudge⟩ := policy.exists_judge_eq estimate
  unfold warningFindings
  rw [hwarnings, hjudge]
  cases hcode : policy.remarkCode? estimate with
  | none => exact .nil
  | some code =>
    apply List.Forall₂.cons _ .nil
    apply Finding.builds _ _ _ none
    . exact Catalog.isSome_severity?_iff.mpr (hcodes code hcode)
    . exact hmessage
    . decide
    . exact Evidence.exists_witness_single _
        (Evidence.exists_plain_ite _ Evidence.exists_plain_null (Evidence.exists_plain_real _))

theorem mapM_warningFindings_of_not_mem (hwarnings : s.warnings = (policy.judge estimate).2) {code : String}
    (hcode : policy.remarkCode? estimate = some code) (hne : code ≠ "") (hunknown : code ∉ Catalog.canonicalCodes) :
    s.warningFindings.mapM Diagnostic.build = .error (.unknownCode code "severity") := by
  obtain ⟨message, hmessage, hjudge⟩ := policy.exists_judge_eq estimate
  have hbuild := Diagnostic.build_eq_unknownCode none
    (.mapping [(.text "cond_ind", if s.condition.isNaN then .null else .real s.condition)]) hne hunknown hmessage
    (by decide : "solver" ≠ "")
  unfold warningFindings
  rw [hwarnings, hjudge, hcode]
  exact bind_eq_error_iff.mpr (Or.inl hbuild)

theorem IsRated.exists_diagnostics (h : s.IsRated policy) (hwarnings : s.warnings = (policy.judge estimate).2)
    (hcodes : ∀ code ∈ policy.remarkCode? estimate, code ∈ Catalog.canonicalCodes) :
    ∃ ds, s.diagnostics = .ok ds ∧ ds.Pairwise (fun a b => a.le b = true) ∧
      (ds.map (·.code)).Perm (s.verdictCodes ++ (policy.remarkCode? estimate).toList) ∧
      ∀ d ∈ ds, some d.severity = Catalog.severity? d.code := by
  have hbuilds : List.Forall₂ Finding.Builds (s.verdictFindings ++ s.warningFindings)
      (s.verdictCodes ++ (policy.remarkCode? estimate).toList) :=
    List.rel_append h.builds_verdictFindings (builds_warningFindings_of_mem hwarnings hcodes)
  obtain ⟨ds, hds, hmap, hseverity⟩ := Finding.exists_mapM_build hbuilds
  refine ⟨Diagnostic.sort ds, ?_, Diagnostic.pairwise_sort ds, ?_, ?_⟩
  . unfold diagnostics
    rw [findings_eq_append, hds]
    rfl
  . rw [← hmap]
    exact (Diagnostic.perm_sort ds).map _
  . intro d hd
    exact hseverity d ((Diagnostic.perm_sort ds).mem_iff.mp hd)

theorem IsRated.diagnostics_eq_error (h : s.IsRated policy) (hwarnings : s.warnings = (policy.judge estimate).2)
    {code : String} (hcode : policy.remarkCode? estimate = some code) (hne : code ≠ "")
    (hunknown : code ∉ Catalog.canonicalCodes) : s.diagnostics = .error (.unknownCode code "severity") := by
  obtain ⟨own, hown, -⟩ := Finding.exists_mapM_build h.builds_verdictFindings
  unfold diagnostics
  rw [findings_eq_append, List.mapM_append, hown, mapM_warningFindings_of_not_mem hwarnings hcode hne hunknown]
  rfl

end Solution

theorem diagnostics_of_remarkCode (settings : Document) (artifact : String) (thresholds : Thresholds)
    (system : LinearSystem) (numerics : Numerics) (estimator : Estimator)
    (hthresholds : Thresholds.ofDocument settings artifact = .ok thresholds) (hbounded : system.grid.IsBounded) :
    let remark := thresholds.condition.remarkCode? (estimator system.size system.grid.coefficients)
    ∃ sol, (Solver.ofSystem system thresholds numerics estimator).solve.outcome = .ok sol ∧
      ((∃ ds, sol.diagnostics = .ok ds) ↔ ∀ code ∈ remark, code ∈ Catalog.canonicalCodes) ∧
      (∀ ds, sol.diagnostics = .ok ds → ds.Pairwise (fun a b => a.le b = true) ∧
        (ds.map (·.code)).Perm (sol.verdictCodes ++ remark.toList) ∧
        ∀ d ∈ ds, some d.severity = Catalog.severity? d.code) ∧
      (∀ e, sol.diagnostics = .error e →
        ∃ code ∈ remark, code ∉ Catalog.canonicalCodes ∧ e = .unknownCode code "severity") := by
  intro remark
  let s := Solver.ofSystem system thresholds numerics estimator
  obtain ⟨sol, hsol⟩ := s.exists_outcome_of_isBounded rfl hbounded (Thresholds.eqv_of_ofDocument hthresholds)
  have hrated := Solver.isRated_of_solve hsol
  have hwarnings : sol.warnings = (thresholds.condition.judge (estimator system.size system.grid.coefficients)).2 :=
    (Solver.rates_of_solve hsol).warnings_eq
  have hsound := (Thresholds.ofDocument_eq_ok_iff.mp hthresholds).right.left.condition
  refine ⟨sol, hsol, ?_⟩
  by_cases hcodes : ∀ code ∈ remark, code ∈ Catalog.canonicalCodes
  . obtain ⟨ds, hds, hrest⟩ := hrated.exists_diagnostics hwarnings hcodes
    rw [hds]
    refine ⟨iff_of_true ⟨ds, rfl⟩ hcodes, ?_, nofun⟩
    intro ds' heq
    cases heq
    exact hrest
  . have hcodes' := hcodes
    rw [not_forall₂] at hcodes'
    obtain ⟨code, hcode, hunknown⟩ := hcodes'
    have hne := ConditionPolicy.forall_mem_remarkCode? (P := (· ≠ "")) hsound.unavailableCode_ne
      hsound.illConditionedCode_ne code hcode
    rw [hrated.diagnostics_eq_error hwarnings hcode hne hunknown]
    refine ⟨iff_of_false nofun hcodes, nofun, ?_⟩
    intro e he
    cases he
    exact ⟨code, hcode, hunknown, rfl⟩

def remarkedByOwnCode : Thresholds :=
  { Thresholds.default with
    condition := { Thresholds.default.condition with illConditionedCode := "W_CUSTOM", warnMax := .one } }

theorem ofDocument_remarkedByOwnCode :
    Thresholds.ofDocument remarkedByOwnCode.settings "thresholds_v1.yaml" = .ok remarkedByOwnCode := by
  decide +kernel

theorem isBounded_singleEquation : singleEquation.grid.IsBounded := by
  decide +kernel

theorem diagnostics_of_remarkedByOwnCode :
    ∃ sol ds, (Solver.ofSystem singleEquation remarkedByOwnCode .standard fun _ _ => none).solve.outcome = .ok sol ∧
      sol.diagnostics = .ok ds := by
  have hdiagnostics := diagnostics_of_remarkCode remarkedByOwnCode.settings "thresholds_v1.yaml" remarkedByOwnCode
    singleEquation .standard (fun _ _ => none) ofDocument_remarkedByOwnCode isBounded_singleEquation
  dsimp only at hdiagnostics
  obtain ⟨sol, hsol, hiff, -⟩ := hdiagnostics
  obtain ⟨ds, hds⟩ := hiff.mpr (by decide)
  exact ⟨sol, ds, hsol, hds⟩

theorem not_diagnostics_of_remarkedByOwnCode :
    Thresholds.ofDocument remarkedByOwnCode.settings "thresholds_v1.yaml" = .ok remarkedByOwnCode ∧
      singleEquation.grid.IsBounded ∧
      ∃ sol,
        (Solver.ofSystem singleEquation remarkedByOwnCode .standard Numerics.standard.estimator).solve.outcome =
          .ok sol ∧
        sol.diagnostics = .error (.unknownCode "W_CUSTOM" "severity") := by
  -- With the indicator of the equation, which is one, there are no diagnostics.
  refine ⟨ofDocument_remarkedByOwnCode, isBounded_singleEquation, ?_⟩
  let s := Solver.ofSystem singleEquation remarkedByOwnCode .standard Numerics.standard.estimator
  obtain ⟨sol, hsol⟩ := s.exists_outcome_of_isBounded rfl isBounded_singleEquation
    (Thresholds.eqv_of_ofDocument ofDocument_remarkedByOwnCode)
  have hremark :
      remarkedByOwnCode.condition.remarkCode? (Numerics.standard.estimator 1 singleEquation.grid.coefficients) =
        some "W_CUSTOM" := by
    decide +kernel
  refine ⟨sol, hsol, ?_⟩
  apply (Solver.isRated_of_solve hsol).diagnostics_eq_error (Solver.rates_of_solve hsol).warnings_eq hremark
  . decide
  . decide

end RowSweep
