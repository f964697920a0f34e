import RowSweep.Proofs.RowOrder
import RowSweep.Proofs.Solver.Outcome
import RowSweep.Proofs.Sweep.Pivots

/-!
This module contains what the reported pivots say about the reduced grid, and about the kind of a solution.
-/

namespace RowSweep

theorem Grid.IsBounded.orderRows {g : Grid m (n + 1)} (hg : g.IsBounded) : g.orderRows.grid.IsBounded :=
  forall_row_of_perm g.perm_orderRows.symm (P := fun row : Row (n + 1) =>
    ∀ j : Fin (n + 1), row[j].abs.lt (.twoPow 1022) = true) hg

namespace Solver

theorem exists_outcome_of_isBounded (s : Solver n) (hfresh : s.consumed = false) (hg : s.grid.IsBounded)
    (hbands : s.thresholds.residual.failMinExclusive.eqv s.thresholds.residual.degradedMax = true) :
    ∃ sol, s.solve.outcome = .ok sol :=
  s.exists_outcome_of_ended hfresh
    (Sweep.ended_of_isBounded s.thresholds.sweep (Nat.le_refl n) hg.orderRows) hbands

theorem kind_eq_unique_iff {s : Solver n} (hg : s.grid.IsBounded) (h : s.solve.outcome = .ok sol)
    (hconsistent : sol.consistent = true) :
    sol.kind = .unique ↔ sol.sweep.freeColumns = [] := by
  have hkind := kind_eq_of_solve h
  have hconcludes := s.concludes_solve
  rw [h] at hconcludes
  cases hconcludes with
  | solved ended consistent grid_eq sweep_eq consistent_eq basis_eq kind_eq =>
    have hended := Sweep.ended_of_isConsistent
      (Sweep.ended_of_isBounded s.thresholds.sweep (Nat.le_refl n) hg.orderRows) consistent
    have hpivoted := Sweep.pivoted_run (Sweep.keepsZeros_of_isBounded hg.orderRows) hended
    have hfull := hpivoted.hasFullPivots_iff
    change (reduce s.thresholds.sweep s.grid).grid.hasFullPivots _ = true ↔ _ at hfull
    rw [← grid_eq] at hfull consistent
    rw [if_pos consistent] at hkind
    have hsweep : sol.sweep.freeColumns = (reduce s.thresholds.sweep s.grid).sweep.freeColumns := by
      rw [sweep_eq]
      rfl
    rw [hkind, hsweep]
    refine Iff.trans ?_ hfull
    cases sol.grid.hasFullPivots (Nat.le_refl n) <;> simp
  | inconsistent ended consistent grid_eq sweep_eq consistent_eq basis_eq kind_eq =>
    rw [consistent_eq] at hconsistent
    cases hconsistent

end Solver

theorem pivots_of_sweep (settings : SweepSettings) (g : Grid n (n + 1)) (hg : g.IsBounded) :
    let sweep := Sweep.run settings g (Nat.le_refl n)
    (sweep.ended = none →
      sweep.pivotColumns.Pairwise (· < ·) ∧ sweep.freeColumns.Pairwise (· < ·) ∧
      (∀ c, c < n ↔ c ∈ sweep.pivotColumns ∨ c ∈ sweep.freeColumns) ∧
      (∀ c ∈ sweep.pivotColumns, c ∉ sweep.freeColumns) ∧
      (∀ c < n, c ∈ sweep.pivotColumns ↔
        let begun := Sweep.upTo settings g (Nat.le_refl n) c
        ∃ r < begun.openRows, begun.grid.HasEntry r c) ∧
      (∀ i (hi : i < sweep.pivotColumns.length),
        sweep.grid.HasEntry (n - 1 - i) sweep.pivotColumns[i]) ∧
      (∀ f ∈ sweep.freeColumns, ∀ r, r + sweep.pivotColumns.countP (· < f) < n →
        ¬ sweep.grid.HasEntry r f) ∧
      (sweep.grid.hasFullPivots (Nat.le_refl n) = true ↔ sweep.freeColumns = [])) ∧
    (sweep.ended = none ∨ sweep.ended = some .contradiction) ∧
    ∀ (s : Solver n) (sol : Solution n), s.grid = g → s.solve.outcome = .ok sol →
      sol.consistent = true → (sol.kind = .unique ↔ sol.sweep.freeColumns = []) := by
  intro sweep
  refine ⟨?_, Sweep.ended_of_isBounded settings (Nat.le_refl n) hg, ?_⟩
  . intro hended
    have hp := Sweep.pivoted_run (Sweep.keepsZeros_of_isBounded hg) hended
    exact ⟨hp.pivot_sorted, hp.free_sorted, hp.lt_iff,
      fun c hc hfree => (hp.mem_freeColumns_iff.mp hfree).right hc,
      hp.pivot_iff, hp.pivot_entry, hp.free_zero, hp.hasFullPivots_iff⟩
  . intro s sol hs hsol hconsistent
    subst hs
    exact Solver.kind_eq_unique_iff hg hsol hconsistent

def repeatedEquation : Grid 2 3 :=
  #v[#v[.one, .one, .ofNat 2], #v[.one, .one, .ofNat 2]]

theorem pivots_of_repeatedEquation :
    let sweep := Sweep.run Thresholds.default.sweep repeatedEquation (Nat.le_refl 2)
    repeatedEquation.IsBounded ∧ sweep.ended = none ∧ sweep.freeColumns = [1] ∧
      (sweep.grid.hasFullPivots (Nat.le_refl 2) = true ↔ sweep.freeColumns = []) := by
  have hbounded : repeatedEquation.IsBounded := by decide +kernel
  have hended : (Sweep.run Thresholds.default.sweep repeatedEquation (Nat.le_refl 2)).ended = none := by
    decide +kernel
  have hpivots := (pivots_of_sweep Thresholds.default.sweep repeatedEquation hbounded).left hended
  exact ⟨hbounded, hended, by decide +kernel, hpivots.right.right.right.right.right.right.right⟩

end RowSweep
