import RowSweep.Proofs.Binary64.Value
import RowSweep.Proofs.RowOrder
import RowSweep.Proofs.Solver.Outcome
import RowSweep.Proofs.Sweep.Bounds

/-!
This module contains the bound on the magnitudes in a solve: from below `2 ^ 1022` on they never exceed the larger
one of the largest magnitude that was given and `2 ^ 53`, however many steps there are.
-/

namespace RowSweep

open Binary64

attribute [local irreducible] unitsPerOne rangeEnd

namespace Grid

def AtMost (B : ℚ) (g : Grid m n) : Prop :=
  ∀ (i : Fin m) (j : Fin n), g[i][j].isFinite = true ∧ |g[i][j].toRat| ≤ B

instance (B : ℚ) (g : Grid m n) : Decidable (g.AtMost B) :=
  inferInstanceAs (Decidable (∀ (i : Fin m) (j : Fin n), g[i][j].isFinite = true ∧ |g[i][j].toRat| ≤ B))

theorem Within.atMost {g : Grid m n} (h : g.Within M) (hM : (M : ℚ) ≤ B * unitsPerOne) : g.AtMost B := by
  intro i j
  refine ⟨(h i j).isFinite, ?_⟩
  rw [abs_toRat_le_iff]
  exact le_trans (Nat.cast_le.mpr (h i j).magnitude_le) hM

theorem Within.orderRows {g : Grid m (n + 1)} (hg : g.Within M) : g.orderRows.grid.Within M :=
  forall_row_of_perm g.perm_orderRows.symm (P := fun row : Row (n + 1) =>
    ∀ j : Fin (n + 1), Binary64.Within M row[j]) hg

theorem AtMost.exists_isCellBound {g : Grid m n} (hg : g.AtMost B) (hB : B < 2 ^ 1022) :
    ∃ M : Nat, Step.IsCellBound M ∧ g.Within M ∧ (M : ℚ) ≤ max B (2 ^ 53) * unitsPerOne := by
  let M := max (2 ^ 53 * unitsPerOne)
    (Finset.univ.sup fun p : Fin m × Fin n => g[p.1][p.2].magnitude)
  have hlarge : ((2 ^ 53 * unitsPerOne : Nat) : ℚ) ≤ max B (2 ^ 53) * unitsPerOne := by
    rw [Nat.cast_mul, Nat.cast_pow, Nat.cast_ofNat]
    exact mul_le_mul_of_nonneg_right (le_max_right _ _) unitsPerOne_cast_pos.le
  -- A maximum of magnitudes is one of them, so what holds of each of them holds of it.
  have hM : Fits M ∧ (M : ℚ) ≤ max B (2 ^ 53) * unitsPerOne := by
    let P : Nat → Prop := fun a => Fits a ∧ (a : ℚ) ≤ max B (2 ^ 53) * unitsPerOne
    have hlimit : P (2 ^ 53 * unitsPerOne) := ⟨fits_mul_unitsPerOne (Nat.le_refl _), hlarge⟩
    apply max_rec' P hlimit
    apply Finset.sup_induction (p := P)
    . exact ⟨fits_zero, le_trans (Nat.cast_le.mpr (Nat.zero_le _)) hlarge⟩
    . exact fun a ha b hb => max_rec' P ha hb
    . intro p _
      refine ⟨fits_magnitude _, le_trans (abs_toRat_le_iff.mp (hg p.1 p.2).right) ?_⟩
      exact mul_le_mul_of_nonneg_right (le_max_left _ _) unitsPerOne_cast_pos.le
  refine ⟨M, ⟨hM.left, le_max_left _ _, ?_⟩, ?_, hM.right⟩
  . obtain ⟨e, he⟩ : ∃ e, e = 1022 := ⟨_, rfl⟩
    obtain ⟨k, hk⟩ : ∃ k, k = 1074 := ⟨_, rfl⟩
    have hlt : M < 2 ^ (e + k) := by
      have hbound : max B (2 ^ 53) < 2 ^ e := by
        refine max_lt (he ▸ hB) ?_
        exact pow_lt_pow_right₀ one_lt_two (by omega)
      have hcast : (M : ℚ) < 2 ^ e * unitsPerOne :=
        lt_of_le_of_lt hM.right (mul_lt_mul_of_pos_right hbound unitsPerOne_cast_pos)
      rw [unitsPerOne_eq hk, Nat.cast_pow, Nat.cast_ofNat, ← pow_add] at hcast
      exact_mod_cast hcast
    have hpos := unitsPerOne_pos
    have hne : M ≠ 0 := by
      have : 2 ^ 53 * unitsPerOne ≤ M := le_max_left _ _
      omega
    have hlog := (Nat.log2_lt hne).mpr hlt
    omega
  . intro i j
    refine ⟨(hg i j).left, le_trans ?_ (le_max_right _ _)⟩
    exact Finset.le_sup (f := fun p : Fin m × Fin n => g[p.1][p.2].magnitude) (Finset.mem_univ (i, j))

end Grid

namespace Sweep

variable {settings : SweepSettings} {g : Grid m (n + 1)} {h : n ≤ m} {M : Nat}

theorem within_run (hM : Step.IsCellBound M) (hg : g.Within M) : (run settings g h).grid.Within M := by
  rw [← upTo_length]
  exact within_upTo hM hg (Nat.le_refl n)

theorem within_trace (hM : Step.IsCellBound M) (hg : g.Within M) :
    ∀ step ∈ (run settings g h).trace, step.grid.Within M := by
  intro step hmem
  obtain ⟨c, r, hr, reached, rfl⟩ := exists_of_mem_trace step hmem
  have hlt := reached.lt
  have hgrid : (before settings g h c r (Nat.lt_of_succ_lt hr)).grid.Within M :=
    within_before hM hg c (by omega) (by omega)
  exact ((Step.effect_ofPair settings _ c r (Nat.lt_of_succ_lt hr) hr).within hM hgrid).left

end Sweep

namespace Solver

theorem mem_trace_of_mem_events {s : Solver n} {step : Step n (n + 1)} (h : .step step ∈ s.solve.events) :
    step ∈ (reduce s.thresholds.sweep s.grid).sweep.trace := by
  revert h
  unfold solve
  split
  next => simp
  next =>
    dsimp only
    split
    next => simp [Reduction.events]
    next =>
      split
      next =>
        split
        next => simp [Reduction.events]
        next =>
          split
          next => simp [Reduction.events]
          next => simp [Reduction.events]
      next => simp [Reduction.events]

theorem solver_solve_of_consumed (s : Solver n) (hused : s.consumed = true) : s.solve.solver = s := by
  unfold solve
  rw [if_pos hused]

end Solver

theorem magnitudes_of_sweep (settings : SweepSettings) (g : Grid n (n + 1)) (B : ℚ) (hg : g.AtMost B)
    (hB : B < 2 ^ 1022) :
    let sweep := Sweep.run settings g (Nat.le_refl n)
    (∀ step ∈ sweep.trace, step.grid.AtMost (max B (2 ^ 53))) ∧ sweep.grid.AtMost (max B (2 ^ 53)) ∧
    ∀ s : Solver n, s.thresholds.sweep = settings → s.grid = g →
      (∀ step, .step step ∈ s.solve.events → step.grid.AtMost (max B (2 ^ 53))) ∧
      s.solve.solver.grid.AtMost (max B (2 ^ 53)) ∧
      ∀ sol, s.solve.outcome = .ok sol → sol.grid.AtMost (max B (2 ^ 53)) := by
  intro sweep
  obtain ⟨M, hM, hwithin, hmax⟩ := hg.exists_isCellBound hB
  refine ⟨fun step hmem => (Sweep.within_trace hM hwithin step hmem).atMost hmax,
    (Sweep.within_run hM hwithin).atMost hmax, ?_⟩
  intro s hsettings hgrid
  subst hsettings
  subst hgrid
  have hordered := hwithin.orderRows
  have hreduced : (Solver.reduce s.thresholds.sweep s.grid).grid.AtMost (max B (2 ^ 53)) :=
    (Sweep.within_run hM hordered).atMost hmax
  refine ⟨?_, ?_, ?_⟩
  . intro step hmem
    exact (Sweep.within_trace hM hordered step (Solver.mem_trace_of_mem_events hmem)).atMost hmax
  . cases hused : s.consumed with
    | false => rwa [s.grid_solve hused]
    | true =>
      rw [s.solver_solve_of_consumed hused]
      exact fun i j => ⟨(hg i j).left, le_trans (hg i j).right (le_max_left _ _)⟩
  . intro sol hsol
    rwa [(Solver.grid_of_solve hsol).left]

def steepLines : Grid 2 3 :=
  #v[#v[.twoPow 1000, .one, .one], #v[.ofNat 3, .one, .twoPow 1000]]

theorem magnitudes_of_steepLines :
    let sweep := Sweep.run Thresholds.default.sweep steepLines (Nat.le_refl 2)
    steepLines.AtMost (2 ^ 1000) ∧ (2 ^ 1000 : ℚ) < 2 ^ 1022 ∧ sweep.trace.size = 1 ∧
      ∀ step ∈ sweep.trace, step.grid.AtMost (2 ^ 1000) := by
  have hg : steepLines.AtMost (2 ^ 1000) := by decide +kernel
  have hB : (2 ^ 1000 : ℚ) < 2 ^ 1022 := pow_lt_pow_right₀ one_lt_two (by decide)
  have hmax : max (2 ^ 1000 : ℚ) (2 ^ 53) = 2 ^ 1000 :=
    max_eq_left (pow_le_pow_right₀ one_le_two (by decide))
  obtain ⟨htrace, -⟩ := magnitudes_of_sweep Thresholds.default.sweep steepLines (2 ^ 1000) hg hB
  rw [hmax] at htrace
  exact ⟨hg, hB, by decide +kernel, htrace⟩

end RowSweep
