import RowSweep.Proofs.Solver.Outcome
import RowSweep.Proofs.Sweep.Exact

/-!
This module contains the correctness of solves that do not round: the reduced grid has the solutions of the given
one, and the kind tells how many there are.
-/

namespace RowSweep

namespace SolutionKind

def Describes (kind : SolutionKind) (solutions : Set α) : Prop :=
  match kind with
  | .unique => ∃! x, x ∈ solutions
  | .singular => solutions.Nontrivial
  | .inconsistent => solutions = ∅

open Classical in
noncomputable def ofSolutions (solutions : Set α) : SolutionKind :=
  if solutions = ∅ then .inconsistent else if solutions.Subsingleton then .unique else .singular

variable {kind kind' : SolutionKind} {solutions : Set α}

theorem Describes.eq_ofSolutions (h : kind.Describes solutions) : kind = ofSolutions solutions := by
  unfold ofSolutions
  cases kind with
  | unique =>
    obtain ⟨x, hx, hunique⟩ := h
    have hsubsingleton : solutions.Subsingleton :=
      fun y hy z hz => (hunique y hy).trans (hunique z hz).symm
    rw [if_neg (Set.nonempty_iff_ne_empty.mp ⟨x, hx⟩), if_pos hsubsingleton]
  | singular =>
    have hnontrivial : solutions.Nontrivial := h
    rw [if_neg hnontrivial.nonempty.ne_empty, if_neg hnontrivial.not_subsingleton]
  | inconsistent =>
    have hempty : solutions = ∅ := h
    rw [if_pos hempty]

theorem Describes.eq_iff (h : kind.Describes solutions) : kind = kind' ↔ kind'.Describes solutions := by
  constructor
  . intro heq
    rwa [← heq]
  . intro h'
    rw [h.eq_ofSolutions, h'.eq_ofSolutions]

end SolutionKind

namespace Sweep

variable {settings : SweepSettings}

theorem IsExact.solutions_run {g : Grid m (n + 1)} {h : n ≤ m} (hexact : IsExact settings g h) :
    (run settings g h).grid.solutions = g.solutions :=
  Grid.solutions_congr hexact.matches_run.annihilates_iff

theorem IsExact.describes_run {g : Grid n (n + 1)} {h : n ≤ n} (hexact : IsExact settings g h)
    {kind : SolutionKind}
    (hkind : kind = if (run settings g h).grid.isConsistent then
        if (run settings g h).grid.hasFullPivots (Nat.le_refl n) then .unique else .singular
      else .inconsistent) :
    kind.Describes (run settings g h).grid.solutions := by
  cases hconsistent : (run settings g h).grid.isConsistent with
  | false =>
    rw [hconsistent] at hkind
    subst hkind
    exact Grid.solutions_eq_empty hexact.matches_run.integer hconsistent
  | true =>
    have hreduced := hexact.isReduced_run (ended_of_isConsistent hexact.ended hconsistent)
    rw [hconsistent, if_pos rfl] at hkind
    cases hfull : (run settings g h).grid.hasFullPivots (Nat.le_refl n) with
    | true =>
      rw [hfull, if_pos rfl] at hkind
      subst hkind
      obtain ⟨x, hx⟩ := hreduced.solutions_nonempty hconsistent
      exact ⟨x, hx, fun y hy => hreduced.solutions_subsingleton hfull hy hx⟩
    | false =>
      rw [hfull] at hkind
      subst hkind
      exact hreduced.solutions_nontrivial hconsistent hfull

end Sweep

theorem Grid.solutions_orderRows (g : Grid m (n + 1)) : g.orderRows.grid.solutions = g.solutions :=
  solutions_congr (annihilates_of_perm g.perm_orderRows)

theorem solutions_of_solve (s : Solver n) (hfresh : s.consumed = false)
    (hexact : Sweep.IsExact s.thresholds.sweep s.grid.orderRows.grid (Nat.le_refl n)) :
    s.solve.solver.grid.solutions = s.grid.solutions ∧
    (∀ sol, s.solve.outcome = .ok sol →
      sol.grid = s.solve.solver.grid ∧
      (sol.kind = .inconsistent ↔ s.grid.solutions = ∅) ∧
      (sol.kind = .unique ↔ ∃! x, x ∈ s.grid.solutions) ∧
      (sol.kind = .singular ↔ s.grid.solutions.Nontrivial)) ∧
    (s.thresholds.residual.failMinExclusive.eqv s.thresholds.residual.degradedMax = true →
      ∃ sol, s.solve.outcome = .ok sol) := by
  have hsolutions : (Solver.reduce s.thresholds.sweep s.grid).grid.solutions = s.grid.solutions :=
    hexact.solutions_run.trans s.grid.solutions_orderRows
  have hgrid := s.grid_solve hfresh
  refine ⟨by rw [hgrid, hsolutions], ?_, ?_⟩
  . intro sol hsol
    have hsolGrid : sol.grid = (Solver.reduce s.thresholds.sweep s.grid).grid :=
      (Solver.grid_of_solve hsol).left
    have hkind := Solver.kind_eq_of_solve hsol
    rw [hsolGrid] at hkind
    have hdescribes := hexact.describes_run hkind
    change sol.kind.Describes (Solver.reduce s.thresholds.sweep s.grid).grid.solutions at hdescribes
    rw [hsolutions] at hdescribes
    exact ⟨hsolGrid.trans hgrid.symm, hdescribes.eq_iff, hdescribes.eq_iff, hdescribes.eq_iff⟩
  . intro hbands
    apply s.exists_outcome hfresh _ hbands
    intro hended
    cases hexact.ended with
    | inl hnone => exact absurd (hnone.symm.trans hended) (Option.some_ne_none _).symm
    | inr hcontradiction =>
      have heq := hcontradiction.symm.trans hended
      cases heq

def crossingLines : Solver 2 where
  thresholds := .default
  numerics := .standard
  estimator := Numerics.standard.estimator
  grid := #v[#v[.one, .ofNat 2, .ofNat 5], #v[.ofNat 3, -.one, .one]]
  given := #v[#v[.one, .ofNat 2, .ofNat 5], #v[.ofNat 3, -.one, .one]]
  x := #v[.zero, .zero]
  residual := #v[.zero, .zero]
  consumed := false

theorem solutions_of_crossingLines :
    crossingLines.consumed = false ∧
      Sweep.IsExact crossingLines.thresholds.sweep crossingLines.grid.orderRows.grid (Nat.le_refl 2) ∧
      ∃ sol, crossingLines.solve.outcome = .ok sol ∧ sol.kind = .unique ∧
        ∃! x, x ∈ crossingLines.grid.solutions := by
  have hfresh : crossingLines.consumed = false := rfl
  have hexact : Sweep.IsExact crossingLines.thresholds.sweep crossingLines.grid.orderRows.grid (Nat.le_refl 2) := by
    decide +kernel
  obtain ⟨-, hkinds, hresult⟩ := solutions_of_solve crossingLines hfresh hexact
  obtain ⟨sol, hsol⟩ := hresult (by decide +kernel)
  have hkind : crossingLines.solve.outcome.map (·.kind) = .ok .unique := by decide +kernel
  rw [hsol] at hkind
  have hunique : sol.kind = .unique := Except.ok.inj hkind
  exact ⟨hfresh, hexact, sol, hsol, hunique, (hkinds sol hsol).right.right.left.mp hunique⟩

end RowSweep
