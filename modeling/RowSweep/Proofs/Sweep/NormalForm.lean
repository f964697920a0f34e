import RowSweep.Proofs.Row.NormalForm
import RowSweep.Proofs.Sweep.Noise

/-!
This module contains the rows that the steps of a sweep leave behind. A row that was just combined is in normal form.
-/

namespace RowSweep

theorem Step.Applies.isNormal {settings : SweepSettings} {upper lower : Row (n + 1)} {merger : Merger (n + 1)}
    {step : Step m (n + 1)} (applies : step.Applies merger r hr h) (merges : Merges settings upper lower c merger)
    (hM : IsCellBound M) (hupper : ∀ j : Fin (n + 1), Binary64.Within M merger.upper[j])
    (hlower : ∀ j : Fin (n + 1), Binary64.Within M merger.lower[j]) : Row.IsNormal step.grid[r] := by
  rw [applies.row]
  apply Row.isNormal_rescale
  intro j
  exact (merges.pairing.within_combine merges.upperEntry hupper hlower hM merger.zeroSnap j).isFinite

theorem Sweep.isNormal_of_mem_trace {settings : SweepSettings} {g : Grid m (n + 1)} {h : n ≤ m} (hg : g.IsBounded)
    {step : Step m (n + 1)} (hmem : step ∈ (run settings g h).trace)
    (haction : step.action = .combine ∨ step.action = .swapCombine) :
    ∃ hrow : step.row < m, Row.IsNormal step.grid[step.row] := by
  obtain ⟨c, r, hr, merger, ⟨reached, hmerger⟩, rfl⟩ := exists_mergesAt_of_mem_trace hmem haction
  obtain ⟨M, hM, hwithin⟩ := hg.exists_isCellBound
  have hlow := reached.lt
  have hr' := Nat.lt_of_succ_lt hr
  have hgrid : (before settings g h c r hr').grid.Within M := within_before hM hwithin c hr' (by omega)
  have hmerges := Step.merges_of_merger? hr' hmerger
  obtain ⟨hupper, hlower⟩ := hmerges.within hr' hgrid
  have hrow : (stepAt settings g h c r hr).row = r :=
    (Step.effect_ofPair settings (before settings g h c r hr').grid c r hr' hr).row_eq
  simp only [hrow]
  exact ⟨hr', (Step.applies_ofPair hr' hmerger).isNormal hmerges hM hupper hlower⟩

theorem normalForm_of_rescale :
    (∀ (s : Sheet) (row : Int) (i : Fin s.rows), s.rowIndex row = .ok i → s.columns ≠ 0 →
      Row.IsBelowTop s.grid[i] → ∃ (g : Grid s.rows s.columns) (d : Binary64),
        s.rescale row = (s.withGrid g, .ok d) ∧ Row.IsNormal g[i] ∧
          (s.withGrid g).rescale row = (s.withGrid g, .ok .one)) ∧
    ∀ {m n : Nat} (settings : SweepSettings) (g : Grid m (n + 1)) (h : n ≤ m), g.IsBounded →
      ∀ step ∈ (Sweep.run settings g h).trace, step.action = .combine ∨ step.action = .swapCombine →
        ∃ hrow : step.row < m, Row.IsNormal step.grid[step.row] := by
  constructor
  . intro s row i hindex hcolumns hbelow
    obtain ⟨g, hrescale, hself, -⟩ := s.exists_rescale row hindex hcolumns hbelow.isFinite_divisor
    have hnormal : Row.IsNormal g[i] := by
      rw [hself]
      exact Row.isNormal_rescale hbelow.isFinite
    refine ⟨g, _, hrescale, hnormal, ?_⟩
    exact (s.withGrid g).rescale_of_isNormal row ((s.rowIndex_withGrid g row).trans hindex) hcolumns hnormal
  . intro m n settings g h hg step hmem haction
    exact Sweep.isNormal_of_mem_trace hg hmem haction

theorem normalForm_of_rescale_smallestUnits :
    Row.IsBelowTop smallestUnits[(0 : Fin 1)] ∧ quarterLines.IsBounded ∧
    (∃ (g : Grid 1 3) (d : Binary64), Sheet.rescale ⟨1, 3, smallestUnits⟩ 0 = (⟨1, 3, g⟩, .ok d) ∧
      Row.IsNormal g[(0 : Fin 1)] ∧ Sheet.rescale ⟨1, 3, g⟩ 0 = (⟨1, 3, g⟩, .ok .one)) ∧
    ∃ step ∈ (Sweep.run Thresholds.default.sweep quarterLines (Nat.le_refl 2)).trace, step.action = .combine ∧
      ∃ hrow : step.row < 2, Row.IsNormal step.grid[step.row] := by
  -- The row `1.5` with two and one of the smallest units does not keep all its digits, but it is normal from
  -- then on. The sweep combines two rows with whole multipliers into one that is no row of integers.
  have hbelow : Row.IsBelowTop smallestUnits[(0 : Fin 1)] := by decide +kernel
  have hbounded : quarterLines.IsBounded := by decide +kernel
  have hcombines : (Sweep.run Thresholds.default.sweep quarterLines (Nat.le_refl 2)).trace.any
      (fun step => decide (step.action = .combine)) = true := by
    decide +kernel
  obtain ⟨i, hi, haction⟩ := Array.any_eq_true.mp hcombines
  rw [decide_eq_true_iff] at haction
  obtain ⟨hrows, hsteps⟩ := normalForm_of_rescale
  refine ⟨hbelow, hbounded, hrows ⟨1, 3, smallestUnits⟩ 0 (0 : Fin 1) rfl (by decide) hbelow, _,
    Array.getElem_mem hi, haction, ?_⟩
  exact hsteps _ _ _ hbounded _ (Array.getElem_mem hi) (Or.inl haction)

end RowSweep
