import RowSweep.Proofs.Residual
import RowSweep.Proofs.Solver.Solutions
import RowSweep.Proofs.Solver.Substitution

/-!
This module contains solves with an integer solution that are exact from the sweep to the residual: as long as the
magnitudes that meet in an equation stay in the exact range, the solution is found as it is.
-/

namespace RowSweep

open Binary64

attribute [local irreducible] unitsPerOne rangeEnd

namespace Grid

theorem IsInteger.sum_eq_of_mem_solutions {g : Grid m (n + 1)} (hg : g.IsInteger) {x : Fin n → Int}
    (hx : (fun j => (x j : ℚ)) ∈ g.solutions) (i : Fin m) :
    ∑ j : Fin n, g[i][j.castSucc].toInt * x j = (Row.constant g[i]).toInt := by
  have hi := hx i
  have hconstant : (Row.constant g[i]).toRat = (Row.constant g[i]).toInt := (hg i).toRat_eq (Fin.last n)
  simp only [(hg i).toRat_eq, hconstant] at hi
  exact_mod_cast hi

theorem IsInteger.balances {g : Grid m (n + 1)} (hg : g.IsInteger) {x : Fin n → Int}
    (hx : (fun j => (x j : ℚ)) ∈ g.solutions) (hweight : ∀ i : Fin m, Row.weight g[i] x ≤ 2 ^ 53) :
    g.Balances x :=
  fun i => ⟨hg i, hg.sum_eq_of_mem_solutions hx i, hweight i⟩

theorem Balances.isZero_residual {g : Grid m (n + 1)} {x : Fin n → Int} (h : g.Balances x) {v : Row n}
    (hv : ∀ j : Fin n, v[j].integer? = some (x j)) (i : Fin m) : (g.residual v)[i].isZero = true := by
  have hrow := (h i).isZero_residual hv
  simpa [residual, getElem_fin] using hrow

end Grid

theorem basicSolution_of_solve (s : Solver n) (hfresh : s.consumed = false) (hgiven : s.given = s.grid)
    (hentries : ∀ (i : Fin n) (j : Fin (n + 1)), s.grid[i][j].toInt.natAbs ≤ 2 ^ 53)
    (hexact : Sweep.IsExact s.thresholds.sweep s.grid.orderRows.grid (Nat.le_refl n))
    (hsolvable : s.grid.solutions.Nonempty)
    (hbands : s.thresholds.residual.failMinExclusive.eqv s.thresholds.residual.degradedMax = true)
    (hproducts : s.numerics.products.AddsUp) (hmagnitudes : s.numerics.magnitudes.AddsUp)
    (hfinite : s.numerics.magnitudes.StaysFinite n) :
    let sweep := (Solver.reduce s.thresholds.sweep s.grid).sweep
    (∃! x, s.grid.IsBasicSolution sweep.pivotColumns x) ∧
    ∀ x : Fin n → Int, s.grid.IsBasicSolution sweep.pivotColumns (fun j => x j) →
      (∀ i : Fin n, Row.weight sweep.grid[i] x ≤ 2 ^ 53) → (∀ i : Fin n, Row.weight s.grid[i] x ≤ 2 ^ 53) →
        ∃ sol v residual, s.solve.outcome = .ok sol ∧
          sol.kind = (if sweep.freeColumns = [] then .unique else .singular) ∧
          sol.x = some v ∧ (∀ j : Fin n, v[j].integer? = some (x j)) ∧
          sol.residual = some residual ∧ (∀ i : Fin n, residual[i].isZero = true) ∧
          (s.thresholds.residual = .default → sol.status = some .pass) := by
  intro sweep
  have hsolutions : sweep.grid.solutions = s.grid.solutions :=
    hexact.solutions_run.trans s.grid.solutions_orderRows
  have hinteger : s.grid.IsInteger := Grid.isInteger_of_perm s.grid.perm_orderRows hexact.integer
  have hconsistent : sweep.grid.isConsistent = true := by
    rw [← hsolutions] at hsolvable
    cases hconsistent : sweep.grid.isConsistent with
    | true => rfl
    | false => exact absurd (Grid.solutions_eq_empty hexact.matches_run.integer hconsistent) hsolvable.ne_empty
  have hended : sweep.ended = none := Sweep.ended_of_isConsistent hexact.ended hconsistent
  have hreduced : sweep.grid.IsReduced sweep.pivotColumns := hexact.isReduced_run hended
  have hbasic : ∀ x,
      s.grid.IsBasicSolution sweep.pivotColumns x ↔ sweep.grid.IsBasicSolution sweep.pivotColumns x := by
    intro x
    unfold Grid.IsBasicSolution
    rw [hsolutions]
  refine ⟨?_, ?_⟩
  . obtain ⟨x, hx⟩ := hreduced.exists_isBasicSolution hconsistent
    exact ⟨x, (hbasic x).mpr hx, fun y hy => hreduced.isBasicSolution_unique hx ((hbasic y).mp hy)⟩
  . intro x hx hweight hgivenWeight
    have hbalances := hreduced.integer.balances ((hbasic _).mp hx).left hweight
    have hgivenBalances := hinteger.balances hx.left hgivenWeight
    obtain ⟨v, hread, hv⟩ := hreduced.exists_readSolution hproducts hbalances
      fun j hj => Int.cast_eq_zero.mp (hx.right j hj)
    obtain ⟨sol, hsol, hsolx, hresidual, hstatus⟩ := s.exists_solved hfresh hended hconsistent hread hbands
    have hzero := hgivenBalances.isZero_residual hv
    rw [hgiven] at hresidual hstatus
    refine ⟨sol, v, _, hsol, ?_, hsolx, hv, hresidual, hzero, ?_⟩
    . have hkind := Solver.kind_eq_of_solve hsol
      have hfull := (Sweep.pivoted_run hexact.keepsZeros hended).hasFullPivots_iff
      change sweep.grid.hasFullPivots _ = true ↔ sweep.freeColumns = [] at hfull
      rw [(Solver.grid_of_solve hsol).left] at hkind
      change sol.kind = if sweep.grid.isConsistent then
        if sweep.grid.hasFullPivots (Nat.le_refl n) then .unique else .singular else .inconsistent at hkind
      rw [hkind, if_pos hconsistent]
      simp only [hfull]
    . intro hdefault
      rw [hstatus, hdefault]
      apply ResidualBands.status?_default
      refine Grid.isZero_relative hmagnitudes hfinite (fun i j => ⟨(hinteger i).isFinite j, ?_⟩)
        (fun j => isFinite_of_integer? (hv j)) ResidualBands.isUnsigned_epsilon_default hzero
      rw [magnitude_of_integer? ((hinteger i).integer? j)]
      exact Nat.mul_le_mul_right _ (hentries i j)

def doubledColumnSolver : Solver 3 :=
  .ofSystem ⟨3, doubledColumn, by decide, by decide +kernel⟩ .default .standard Numerics.standard.estimator

theorem basicSolution_of_doubledColumn :
    let s := doubledColumnSolver
    let x : Fin 3 → Int := ![3, 0, 1]
    s.consumed = false ∧ s.given = s.grid ∧
      (∀ (i : Fin 3) (j : Fin 4), s.grid[i][j].toInt.natAbs ≤ 2 ^ 53) ∧
      Sweep.IsExact s.thresholds.sweep s.grid.orderRows.grid (Nat.le_refl 3) ∧ s.grid.solutions.Nonempty ∧
      s.grid.IsBasicSolution [0, 2] (fun j => x j) ∧
      ∃ sol v residual, s.solve.outcome = .ok sol ∧ sol.kind = .singular ∧
        sol.x = some v ∧ (∀ j : Fin 3, v[j].integer? = some (x j)) ∧
        sol.residual = some residual ∧ (∀ i : Fin 3, residual[i].isZero = true) ∧ sol.status = some .pass := by
  intro s x
  have hentries : ∀ (i : Fin 3) (j : Fin 4), s.grid[i][j].toInt.natAbs ≤ 2 ^ 53 := by decide +kernel
  have hexact : Sweep.IsExact s.thresholds.sweep s.grid.orderRows.grid (Nat.le_refl 3) := by decide +kernel
  have hsolution : (fun j => (x j : ℚ)) ∈ s.grid.solutions := by
    change ∀ i : Fin 3, ∑ j : Fin 3, s.grid[i][j.castSucc].toRat * (x j : ℚ) = (Row.constant s.grid[i]).toRat
    decide +kernel
  have hpivots : (Solver.reduce s.thresholds.sweep s.grid).sweep.pivotColumns = [0, 2] := by decide +kernel
  have hfree : (Solver.reduce s.thresholds.sweep s.grid).sweep.freeColumns = [1] := by decide +kernel
  have hbasic : s.grid.IsBasicSolution [0, 2] (fun j => x j) := ⟨hsolution, by decide +kernel⟩
  obtain ⟨-, hfound⟩ := basicSolution_of_solve s rfl rfl hentries hexact ⟨_, hsolution⟩ (by decide +kernel)
    Summation.addsUp_inOrder Summation.addsUp_pairwise (Summation.addsUp_pairwise.staysFinite (by decide))
  rw [hpivots] at hfound
  obtain ⟨sol, v, residual, hsol, hkind, hx, hv, hresidual, hzero, hstatus⟩ :=
    hfound x hbasic (by decide +kernel) (by decide +kernel)
  rw [hfree] at hkind
  exact ⟨rfl, rfl, hentries, hexact, ⟨_, hsolution⟩, hbasic, sol, v, residual, hsol, hkind, hx, hv, hresidual,
    hzero, hstatus rfl⟩

end RowSweep
