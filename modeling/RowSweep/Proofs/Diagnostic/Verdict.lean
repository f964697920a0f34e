import RowSweep.Command.Run
import RowSweep.Proofs.Diagnostic.Catalogued
import RowSweep.Proofs.Diagnostic.Order
import RowSweep.Proofs.Solver.Outcome
import RowSweep.Proofs.Sweep.Contradiction

/-!
This module contains that the exit code of a solve and its diagnostics give the same verdict, although one is found
from the kind and the status of the solution and the other ones from its grid, its metrics and its warnings.
-/

namespace RowSweep

def ConditionPolicy.Warns (policy : ConditionPolicy) : Prop :=
  Catalog.severity? policy.unavailableCode = some .warning ∧ Catalog.severity? policy.illConditionedCode = some .warning

instance (policy : ConditionPolicy) : Decidable policy.Warns :=
  inferInstanceAs (Decidable (_ ∧ _))

def Finding.Builds (f : Finding) (code : String) : Prop :=
  ∃ d, Diagnostic.build f = .ok d ∧ d.code = code ∧ some d.severity = Catalog.severity? code

namespace Finding

open Diagnostic

variable {fs : List Finding} {codes : List String}

theorem builds (code message source : String) (row : Option Nat) (e : Evidence)
    (hcode : (Catalog.severity? code).isSome = true) (hmessage : message ≠ "") (hsource : source ≠ "")
    (hwitness : ∃ witness, e.witness = .ok witness) :
    Builds { code := .text code, message := .text message, source := .text source, row := .ofIndex? row, witness := e }
      code := by
  unfold Catalog.severity? at hcode
  rw [Option.isSome_map] at hcode
  obtain ⟨entry, hentry⟩ := Option.isSome_iff_exists.mp hcode
  obtain ⟨witness, hwitness⟩ := hwitness
  refine ⟨_, build_eq_catalogued row hentry hmessage hsource hwitness, Catalog.code_of_find? hentry, ?_⟩
  unfold Catalog.severity?
  rw [hentry]
  rfl

theorem exists_mapM_build (h : List.Forall₂ Builds fs codes) :
    ∃ ds, fs.mapM build = .ok ds ∧ ds.map (·.code) = codes ∧ ∀ d ∈ ds, some d.severity = Catalog.severity? d.code := by
  induction h with
  | nil => exact ⟨[], rfl, rfl, nofun⟩
  | cons hfirst _ ih =>
    obtain ⟨d, hd, rfl, hseverity⟩ := hfirst
    obtain ⟨ds, hds, hcodes, hrest⟩ := ih
    refine ⟨d :: ds, mapM_cons_eq_ok_iff.mpr ⟨d, ds, hd, hds, rfl⟩, ?_, ?_⟩
    . rw [List.map_cons, hcodes]
    . rw [List.forall_mem_cons]
      exact ⟨hseverity, hrest⟩

end Finding

namespace Solution

open Evidence

def verdictFindings (s : Solution n) : List Finding :=
  (if !s.consistent then s.contradictionFindings else if s.isSingular then s.singularFindings else []) ++
    s.residualFindings

theorem findings_eq_append (s : Solution n) : s.findings = s.verdictFindings ++ s.warningFindings := rfl

def singularCodes (status : Option Status) : List String :=
  if status = some .pass then ["W_SYS_SINGULAR"] else ["W_SYS_SINGULAR", "W_SYS_BASIS_INCOMPLETE"]

def residualCodes : Option Status → List String
  | some .degraded => ["W_NUM_RESIDUAL_DEGRADED"]
  | some .fail => ["E_NUM_RESIDUAL_FAILED"]
  | _ => []

variable {s : Solution n}

theorem exists_plain_indices (ks : List Nat) : ∃ document, (indices ks).plain = .ok document :=
  exists_plain_integers ks

theorem builds_contradictionFindings (s : Solution n) :
    List.Forall₂ Finding.Builds s.contradictionFindings
      (List.replicate s.grid.contradictoryRows.length "E_SYS_INCONSISTENT") := by
  unfold contradictionFindings
  generalize s.grid.contradictoryRows = rows
  induction rows with
  | nil => exact .nil
  | cons i rest ih =>
    apply List.Forall₂.cons _ ih
    apply Finding.builds _ _ _ (some i.val)
    . decide
    . simp
    . decide
    . exact exists_witness_single _ (exists_plain_real _)

theorem builds_singularFindings (s : Solution n) :
    List.Forall₂ Finding.Builds s.singularFindings (singularCodes s.status) := by
  unfold singularFindings singularCodes
  dsimp only
  generalize s.basis.getD [] = basis
  have hsingular := Finding.builds "W_SYS_SINGULAR" "a column has no pivot; system has no unique solution" "solver" none
    (.mapping [(.text "basis_columns", indices (List.map (·.unknown.toNat) basis)),
      (.text "free_columns", indices (basis.freeColumns n))])
    (by decide) (by decide) (by decide)
    (exists_witness_mapping [("basis_columns", _), ("free_columns", _)] (by simp [exists_plain_indices]))
  have hincomplete := Finding.builds "W_SYS_BASIS_INCOMPLETE"
    "particular solution does not reproduce every original equation" "solver" none
    (.mapping [(.text "basis_columns", indices (List.map (·.unknown.toNat) basis))])
    (by decide) (by decide) (by decide)
    (exists_witness_mapping [("basis_columns", _)] (by simp [exists_plain_indices]))
  split
  next => exact .cons hsingular .nil
  next => exact .cons hsingular (.cons hincomplete .nil)

theorem builds_residualFindings (h : s.status.isSome = true → s.metrics.isSome = true) :
    List.Forall₂ Finding.Builds s.residualFindings (residualCodes s.status) := by
  unfold residualFindings
  split
  next hmetrics =>
    rw [hmetrics] at h
    cases hstatus : s.status with
    | none => exact .nil
    | some status =>
      rw [hstatus] at h
      cases h rfl
  next metrics hmetrics =>
    dsimp only
    split
    next hstatus =>
      rw [hstatus]
      apply List.Forall₂.cons _ .nil
      apply Finding.builds _ _ _ none
      . decide
      . simp [toString]
      . decide
      . exact exists_witness_single _ (exists_plain_real _)
    next hstatus =>
      rw [hstatus]
      apply List.Forall₂.cons _ .nil
      apply Finding.builds _ _ _ none
      . decide
      . simp [toString]
      . decide
      . exact exists_witness_single _ (exists_plain_ite _ (exists_plain_real _) exists_plain_null)
    next =>
      unfold residualCodes
      split
      next hdegraded => contradiction
      next hfail => contradiction
      next => exact .nil

theorem builds_warningFindings
    (h : ∀ w ∈ s.warnings, Catalog.severity? w.code = some .warning ∧ w.message ≠ "") :
    List.Forall₂ Finding.Builds s.warningFindings (s.warnings.map (·.code)) := by
  unfold warningFindings
  generalize s.warnings = warnings at h
  induction warnings with
  | nil => exact .nil
  | cons w rest ih =>
    rw [List.forall_mem_cons] at h
    apply List.Forall₂.cons _ (ih h.right)
    apply Finding.builds _ _ _ none
    . rw [h.left.left]
      rfl
    . exact h.left.right
    . decide
    . exact exists_witness_single _ (exists_plain_ite _ exists_plain_null (exists_plain_real _))

structure IsRated (s : Solution n) (policy : ConditionPolicy) : Prop where
  kind_eq : s.kind = if s.grid.isConsistent then if s.isSingular then .singular else .unique else .inconsistent
  consistent_eq : s.consistent = s.grid.isConsistent
  status_eq : s.status.isSome = s.consistent
  metrics_eq : s.metrics.isSome = s.consistent
  warnings_eq : ∃ estimate, s.warnings = (policy.judge estimate).2

def verdictCodes (s : Solution n) : List String :=
  (if !s.consistent then List.replicate s.grid.contradictoryRows.length "E_SYS_INCONSISTENT"
    else if s.isSingular then singularCodes s.status else []) ++ residualCodes s.status

variable {policy : ConditionPolicy}

theorem IsRated.builds_verdictFindings (h : s.IsRated policy) :
    List.Forall₂ Finding.Builds s.verdictFindings s.verdictCodes := by
  apply List.rel_append
  . split
    next => exact s.builds_contradictionFindings
    next =>
      split
      next => exact s.builds_singularFindings
      next => exact .nil
  . apply builds_residualFindings
    rw [h.status_eq, h.metrics_eq]
    exact id

end Solution

structure ExitCode.Agrees (exitCode : Nat) (codes : List String) : Prop where
  two_iff : exitCode = 2 ↔ ∃ code ∈ codes, Catalog.severity? code = some .error
  one_iff : exitCode = 1 ↔ (¬ ∃ code ∈ codes, Catalog.severity? code = some .error) ∧
    ∃ code ∈ codes, code = "W_SYS_SINGULAR" ∨ code = "W_NUM_RESIDUAL_DEGRADED"
  zero_iff : exitCode = 0 ↔ codes = []

namespace ExitCode

theorem agrees_replicate (k : Nat) : Agrees 2 (List.replicate (k + 1) "E_SYS_INCONSISTENT") where
  two_iff := by
    simp [List.mem_replicate]
    decide
  one_iff := by
    simp [List.mem_replicate]
  zero_iff := by
    simp

theorem agrees_unique (status : Status) :
    Agrees (if status = .fail then 2 else if status = .degraded then 1 else 0)
      (Solution.residualCodes (some status)) := by
  cases status with
  | pass => exact ⟨by decide, by decide, by decide⟩
  | degraded => exact ⟨by decide, by decide, by decide⟩
  | fail => exact ⟨by decide, by decide, by decide⟩

theorem agrees_singular (status : Status) :
    Agrees (if status = .fail then 2 else 1)
      (Solution.singularCodes (some status) ++ Solution.residualCodes (some status)) := by
  cases status with
  | pass => exact ⟨by decide, by decide, by decide⟩
  | degraded => exact ⟨by decide, by decide, by decide⟩
  | fail => exact ⟨by decide, by decide, by decide⟩

end ExitCode

namespace Solution

variable {s : Solution n} {policy : ConditionPolicy}

theorem IsRated.contradictoryRows_ne_nil (h : s.IsRated policy) (hconsistent : s.consistent = false) :
    s.grid.contradictoryRows ≠ [] := by
  rw [h.consistent_eq, Grid.isConsistent_eq_false_iff] at hconsistent
  obtain ⟨i, hi, hrow⟩ := hconsistent
  apply List.ne_nil_of_mem (a := ⟨i, hi⟩)
  rw [Grid.contradictoryRows, List.mem_filter]
  exact ⟨List.mem_finRange _, hrow⟩

theorem IsRated.agrees (h : s.IsRated policy) : ExitCode.Agrees s.exitCode s.verdictCodes := by
  have hkind := h.kind_eq
  have hstatus := h.status_eq
  rw [← h.consistent_eq] at hkind
  unfold exitCode verdictCodes
  cases hconsistent : s.consistent with
  | false =>
    rw [hconsistent] at hkind hstatus
    rw [Option.isSome_eq_false_iff, Option.isNone_iff_eq_none] at hstatus
    obtain ⟨i, rest, hrows⟩ := List.exists_cons_of_ne_nil (h.contradictoryRows_ne_nil hconsistent)
    have hagrees := ExitCode.agrees_replicate rest.length
    simpa [hkind, hstatus, hrows, residualCodes] using hagrees
  | true =>
    rw [hconsistent] at hkind hstatus
    obtain ⟨status, hstatus⟩ := Option.isSome_iff_exists.mp hstatus
    cases hsingular : s.isSingular with
    | false =>
      have hagrees := ExitCode.agrees_unique status
      simpa [hkind, hstatus, hsingular] using hagrees
    | true =>
      have hagrees := ExitCode.agrees_singular status
      simpa [hkind, hstatus, hsingular] using hagrees

end Solution

theorem ConditionPolicy.Warns.judge {policy : ConditionPolicy} (h : policy.Warns) (estimate : Option Binary64) :
    ∀ w ∈ (policy.judge estimate).2, Catalog.severity? w.code = some .warning ∧ w.message ≠ "" := by
  unfold ConditionPolicy.judge
  split
  next => simp [h.left]
  next =>
    split
    next => simp [h.right, toString]
    next => nofun

namespace Solver

variable {s : Solver n} {sol : Solution n}

theorem isRated_of_solve (h : s.solve.outcome = .ok sol) : sol.IsRated s.thresholds.condition := by
  have hrates := rates_of_solve h
  refine ⟨?_, hrates.consistent_eq, hrates.isSome_status, hrates.isSome_metrics, _, hrates.warnings_eq⟩
  rw [kind_eq_of_solve h, Solution.isSingular]
  cases sol.grid.hasFullPivots (Nat.le_refl n) <;> rfl

end Solver

namespace Solution

variable {s : Solution n} {policy : ConditionPolicy}

theorem IsRated.builds_warningFindings (h : s.IsRated policy) (hcodes : policy.Warns) :
    List.Forall₂ Finding.Builds s.warningFindings (s.warnings.map (·.code)) ∧
      ∀ code ∈ s.warnings.map (·.code), Catalog.severity? code = some .warning := by
  obtain ⟨estimate, hwarnings⟩ := h.warnings_eq
  have hjudge := hcodes.judge estimate
  rw [← hwarnings] at hjudge
  refine ⟨Solution.builds_warningFindings hjudge, ?_⟩
  rw [List.forall_mem_map]
  exact fun w hw => (hjudge w hw).left

end Solution

theorem Diagnostic.exists_error_iff {own remarks : List Diagnostic}
    (hown : ∀ d ∈ own, some d.severity = Catalog.severity? d.code) (hremarks : ∀ d ∈ remarks, d.severity = .warning) :
    (∃ d ∈ sort (own ++ remarks), d.severity = .error) ↔
      ∃ code ∈ own.map (·.code), Catalog.severity? code = some .error := by
  constructor
  . intro h
    obtain ⟨d, hd, hseverity⟩ := h
    rw [(perm_sort _).mem_iff, List.mem_append] at hd
    cases hd with
    | inl hd =>
      refine ⟨d.code, List.mem_map_of_mem hd, ?_⟩
      rw [← hown d hd, hseverity]
    | inr hd =>
      rw [hremarks d hd] at hseverity
      cases hseverity
  . intro h
    obtain ⟨code, hcode, hseverity⟩ := h
    obtain ⟨d, hd, rfl⟩ := List.mem_map.mp hcode
    refine ⟨d, (perm_sort _).mem_iff.mpr (List.mem_append_left _ hd), ?_⟩
    rw [← hown d hd] at hseverity
    exact Option.some.inj hseverity

theorem exitCode_of_solve (s : Solver n) (sol : Solution n) (h : s.solve.outcome = .ok sol)
    (hcodes : s.thresholds.condition.Warns) :
    ∃ own remarks, sol.verdictFindings.mapM Diagnostic.build = .ok own ∧
      sol.warningFindings.mapM Diagnostic.build = .ok remarks ∧
      sol.diagnostics = .ok (Diagnostic.sort (own ++ remarks)) ∧
      (∀ inputs trace, (Command.reportSolve inputs trace s.thresholds s.solve).exitCode = sol.exitCode) ∧
      (sol.exitCode = 2 ↔ ∃ d ∈ Diagnostic.sort (own ++ remarks), d.severity = .error) ∧
      (sol.exitCode = 1 ↔ (¬ ∃ d ∈ Diagnostic.sort (own ++ remarks), d.severity = .error) ∧
        ∃ d ∈ own, d.code = "W_SYS_SINGULAR" ∨ d.code = "W_NUM_RESIDUAL_DEGRADED") ∧
      (sol.exitCode = 0 ↔ own = []) := by
  have hrated := Solver.isRated_of_solve h
  have hagrees := hrated.agrees
  obtain ⟨hremark, hwarning⟩ := hrated.builds_warningFindings hcodes
  obtain ⟨own, hown, hownCodes, hownSeverity⟩ := Finding.exists_mapM_build hrated.builds_verdictFindings
  obtain ⟨remarks, hremarks, hremarkCodes, hremarkSeverity⟩ := Finding.exists_mapM_build hremark
  have hdiagnostics : sol.diagnostics = .ok (Diagnostic.sort (own ++ remarks)) := by
    unfold Solution.diagnostics
    rw [Solution.findings_eq_append, List.mapM_append, hown, hremarks]
    rfl
  have hremarkWarning : ∀ d ∈ remarks, d.severity = .warning := by
    intro d hd
    have hcode : d.code ∈ sol.warnings.map (·.code) := by
      rw [← hremarkCodes]
      exact List.mem_map_of_mem hd
    have hseverity := hremarkSeverity d hd
    rw [hwarning d.code hcode] at hseverity
    exact Option.some.inj hseverity
  have herror := Diagnostic.exists_error_iff hownSeverity hremarkWarning
  rw [← hownCodes] at hagrees
  refine ⟨own, remarks, hown, hremarks, hdiagnostics, ?_, ?_, ?_, ?_⟩
  . intro inputs trace
    unfold Command.reportSolve
    rw [h]
    dsimp only
    rw [hdiagnostics]
  . rw [herror]
    exact hagrees.two_iff
  . rw [hagrees.one_iff, herror]
    simp only [List.mem_map, exists_exists_and_eq_and]
  . rw [hagrees.zero_iff, List.map_eq_nil_iff]

def remarkedAsSingular : Thresholds :=
  { Thresholds.default with
    condition := { Thresholds.default.condition with unavailableCode := "W_SYS_SINGULAR" } }

def singleEquation : LinearSystem :=
  ⟨1, #v[#v[.one, .one]], by decide, by decide +kernel⟩

theorem exitCode_of_remarkedAsSingular :
    ∃ (sol : Solution 1) (own remarks : List Diagnostic), sol.diagnostics = .ok (Diagnostic.sort (own ++ remarks)) ∧
      remarks.map (·.code) = ["W_SYS_SINGULAR"] ∧ own = [] ∧ sol.exitCode = 0 := by
  let s : Solver 1 := Solver.ofSystem singleEquation remarkedAsSingular .standard fun _ _ => none
  have hexit : s.solve.outcome.map (fun sol => (sol.exitCode, sol.warnings.map (·.code))) =
      .ok (0, ["W_SYS_SINGULAR"]) := by
    decide +kernel
  obtain ⟨sol, hsol, hsummary⟩ := map_eq_ok_iff.mp hexit
  obtain ⟨own, remarks, hown, hremarks, hdiagnostics, -, -, -, hzero⟩ := exitCode_of_solve s sol hsol (by decide)
  obtain ⟨hcode, hwarnings⟩ := Prod.mk.inj hsummary
  obtain ⟨hremark, -⟩ := (Solver.isRated_of_solve hsol).builds_warningFindings (by decide)
  obtain ⟨remarks', hremarks', hcodes, -⟩ := Finding.exists_mapM_build hremark
  rw [hremarks] at hremarks'
  cases hremarks'
  rw [hwarnings] at hcodes
  exact ⟨sol, own, remarks, hdiagnostics, hcodes, hzero.mp hcode, hcode⟩

end RowSweep
