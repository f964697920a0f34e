import RowSweep.Proofs.Solver.Outcome
import RowSweep.Proofs.Sweep.Exact

/-!
This module contains the basis of a grid in echelon form: it is made of the pivots, so it names the same columns as
the sweep does.
-/

namespace RowSweep

namespace Grid.IsReduced

variable {g : Grid n (n + 1)} {pivots : List Nat} (h : g.IsReduced pivots)

def entryOf (h : g.IsReduced pivots) (i : Fin pivots.length) : BasisEntry :=
  ⟨h.unknownOf i, h.rowOf i, h.unknownOf i⟩

include h

theorem unknownOf_lt {i i' : Fin pivots.length} (hlt : i < i') : h.unknownOf i < h.unknownOf i' :=
  h.staircase.strictMono hlt

theorem rowOf_lt_iff {i i' : Fin pivots.length} : h.rowOf i' < h.rowOf i ↔ i < i' := by
  unfold rowOf
  rw [Fin.rev_lt_rev]
  rfl

theorem isZero_pivot (i : Fin pivots.length) : g[h.rowOf i][(h.unknownOf i).castSucc].isZero = false := by
  have hentry := h.echelon.pivot i i.isLt
  rw [← h.rowOf_val i] at hentry
  exact (hasEntry_castSucc (h.rowOf i).isLt (h.unknownOf i)).mp hentry

theorem isZero_before (i : Fin pivots.length) (j : Fin n) (hj : j < h.unknownOf i) :
    g[h.rowOf i][j.castSucc].isZero = true := by
  have hzero := h.echelon.before i i.isLt j hj
  rw [← h.rowOf_val i] at hzero
  exact (not_hasEntry_castSucc (h.rowOf i).isLt j).mp hzero

theorem isZero_above (r : Fin n) (hr : r + pivots.length < n) (j : Fin n) : g[r][j.castSucc].isZero = true :=
  (not_hasEntry_castSucc r.isLt j).mp (h.echelon.above r hr j j.isLt)

theorem isZero_of_lt_rowOf (i : Fin pivots.length) (r : Fin n) (hr : r < h.rowOf i) :
    g[r][(h.unknownOf i).castSucc].isZero = true := by
  -- The rows above that of a pivot have no entry in its column.
  by_cases habove : r + pivots.length < n
  . exact h.isZero_above r habove _
  . obtain ⟨i', rfl⟩ := h.exists_rowOf r (by omega)
    exact h.isZero_before i' _ (h.unknownOf_lt (h.rowOf_lt_iff.mp hr))

theorem leading?_rowOf (i : Fin pivots.length) : Row.leading? g[h.rowOf i] = some (h.unknownOf i) :=
  Row.leading?_eq_some.mpr ⟨h.isZero_pivot i, h.isZero_before i⟩

theorem leading?_above (r : Fin n) (hr : r + pivots.length < n) : Row.leading? g[r] = none :=
  Row.leading?_eq_none.mpr (h.isZero_above r hr)

theorem duplicateOf?_rowOf (i : Fin pivots.length) : g.duplicateOf? (h.rowOf i) = none := by
  -- An earlier row is different in the column of the pivot.
  cases hdup : g.duplicateOf? (h.rowOf i) with
  | none => rfl
  | some k =>
    obtain ⟨hlt, heqv⟩ := eqv_of_duplicateOf? hdup
    unfold Row.eqv at heqv
    rw [List.all_eq_true] at heqv
    have hcell := heqv (h.unknownOf i).castSucc (List.mem_finRange _)
    have hzero := (Binary64.isZero_eq_of_eqv hcell).symm.trans (h.isZero_of_lt_rowOf i k hlt)
    rw [h.isZero_pivot i] at hzero
    cases hzero

theorem ofRow?_eq_some {r : Fin n} : Basis.ofRow? g r = some e ↔ ∃ i, h.rowOf i = r ∧ h.entryOf i = e := by
  rw [Basis.ofRow?_eq_some]
  constructor
  . intro hrow
    obtain ⟨-, c, hleading, hentry⟩ := hrow
    by_cases habove : r + pivots.length < n
    . rw [h.leading?_above r habove] at hleading
      cases hleading
    . obtain ⟨i, rfl⟩ := h.exists_rowOf r (by omega)
      rw [h.leading?_rowOf i] at hleading
      cases hleading
      exact ⟨i, rfl, hentry⟩
  . intro hrow
    obtain ⟨i, rfl, hentry⟩ := hrow
    exact ⟨h.duplicateOf?_rowOf i, _, h.leading?_rowOf i, hentry⟩

theorem isTopmost_rowOf (i : Fin pivots.length) : Basis.IsTopmost g (h.rowOf i) (h.entryOf i) := by
  refine ⟨h.ofRow?_eq_some.mpr ⟨i, rfl, rfl⟩, ?_⟩
  intro k hk f hf
  obtain ⟨i', rfl, rfl⟩ := h.ofRow?_eq_some.mp hf
  have hlt := h.unknownOf_lt (h.rowOf_lt_iff.mp hk)
  unfold entryOf
  simp only
  omega

theorem mem_ofGrid : e ∈ Basis.ofGrid g ↔ ∃ i, h.entryOf i = e := by
  rw [Basis.mem_ofGrid]
  constructor
  . intro hex
    obtain ⟨r, htop⟩ := hex
    obtain ⟨i, -, heq⟩ := h.ofRow?_eq_some.mp htop.entry
    exact ⟨i, heq⟩
  . intro hex
    obtain ⟨i, rfl⟩ := hex
    exact ⟨h.rowOf i, h.isTopmost_rowOf i⟩

theorem ofGrid_eq : Basis.ofGrid g = pivots.mapIdx fun i c => ⟨c, (n - 1 - i : Nat), c⟩ := by
  have hentry : ∀ i : Fin pivots.length,
      h.entryOf i = ⟨pivots[i.val], (n - 1 - i : Nat), pivots[i.val]⟩ := by
    intro i
    unfold entryOf
    rw [h.rowOf_val]
    rfl
  apply (Basis.isSorted_ofGrid g).eq_of_mem_iff
  . unfold Basis.IsSorted
    rw [List.pairwise_iff_getElem]
    intro i j hi hj hij
    rw [List.getElem_mapIdx, List.getElem_mapIdx]
    rw [List.length_mapIdx] at hi hj
    exact Int.ofNat_lt.mpr (List.pairwise_iff_getElem.mp h.sorted i j hi hj hij)
  . intro e
    rw [h.mem_ofGrid, List.mem_mapIdx]
    constructor
    . intro hex
      obtain ⟨i, rfl⟩ := hex
      exact ⟨i, i.isLt, (hentry i).symm⟩
    . intro hex
      obtain ⟨i, hi, rfl⟩ := hex
      exact ⟨⟨i, hi⟩, hentry ⟨i, hi⟩⟩

theorem has_ofGrid (c : Nat) : (Basis.ofGrid g).has c = true ↔ c ∈ pivots := by
  rw [Basis.has_iff, List.mem_iff_get]
  simp only [h.mem_ofGrid]
  constructor
  . intro hex
    obtain ⟨-, ⟨i, rfl⟩, hc⟩ := hex
    exact ⟨i, Int.ofNat_inj.mp hc⟩
  . intro hex
    obtain ⟨i, rfl⟩ := hex
    exact ⟨h.entryOf i, ⟨i, rfl⟩, rfl⟩

end Grid.IsReduced

namespace Sweep.IsExact

variable {settings : SweepSettings} {g : Grid n (n + 1)} {h : n ≤ n} (hexact : IsExact settings g h)
variable (hended : (run settings g h).ended = none)

include hexact hended

theorem mem_pivotColumns_iff (c : Fin n) : c.val ∈ (run settings g h).pivotColumns ↔ ¬ g.DependsOnEarlier c := by
  rw [← Grid.dependsOnEarlier_congr hexact.matches_run.annihilates_iff,
    (hexact.isReduced_run hended).dependsOnEarlier_iff, not_not]

theorem length_pivotColumns : (run settings g h).pivotColumns.length = g.rank := by
  rw [← Grid.rank_congr hexact.matches_run.annihilates_iff, (hexact.isReduced_run hended).rank_eq]

theorem pivotColumns_eq_of_perm {settings' : SweepSettings} {g' : Grid n (n + 1)} (hperm : g'.Perm g)
    (hexact' : IsExact settings' g' h) (hended' : (run settings' g' h).ended = none) :
    (run settings' g' h).pivotColumns = (run settings g h).pivotColumns := by
  -- Rows in another order have the same pivot columns, because their columns depend on each other in the same
  -- way.
  have hreduced := hexact.isReduced_run hended
  have hreduced' := hexact'.isReduced_run hended'
  apply hreduced'.sorted.eq_of_mem_iff hreduced.sorted
  have hiff : ∀ c : Fin n,
      c.val ∈ (run settings' g' h).pivotColumns ↔ c.val ∈ (run settings g h).pivotColumns := by
    intro c
    rw [hexact'.mem_pivotColumns_iff hended', hexact.mem_pivotColumns_iff hended,
      Grid.dependsOnEarlier_congr (Grid.annihilates_of_perm hperm)]
  intro c
  constructor
  . intro hc
    exact (hiff ⟨c, hreduced'.lt c hc⟩).mp hc
  . intro hc
    exact (hiff ⟨c, hreduced.lt c hc⟩).mpr hc

theorem freeColumns_ofGrid :
    (Basis.ofGrid (run settings g h).grid).freeColumns n = (run settings g h).freeColumns := by
  have hpivoted := pivoted_run hexact.keepsZeros hended
  unfold Basis.freeColumns
  apply (List.pairwise_lt_range.filter _).eq_of_mem_iff hpivoted.free_sorted
  intro c
  rw [List.mem_filter, List.mem_range, hpivoted.mem_freeColumns_iff,
    ← (hexact.isReduced_run hended).has_ofGrid, Bool.not_eq_true', Bool.not_eq_true]

end Sweep.IsExact

theorem pivotColumns_of_exact_sweep (settings : SweepSettings) (g : Grid n (n + 1))
    (hexact : Sweep.IsExact settings g (Nat.le_refl n))
    (hended : (Sweep.run settings g (Nat.le_refl n)).ended = none) :
    let sweep := Sweep.run settings g (Nat.le_refl n)
    sweep.pivotColumns.Pairwise (· < ·) ∧ (∀ c ∈ sweep.pivotColumns, c < n) ∧
    (∀ g' : Grid n (n + 1), g'.Perm g →
      (∀ c : Fin n, c.val ∈ sweep.pivotColumns ↔ ¬ g'.DependsOnEarlier c) ∧
      sweep.pivotColumns.length = g'.rank ∧
      ∀ settings' : SweepSettings, Sweep.IsExact settings' g' (Nat.le_refl n) →
        (Sweep.run settings' g' (Nat.le_refl n)).ended = none →
          (Sweep.run settings' g' (Nat.le_refl n)).pivotColumns = sweep.pivotColumns) ∧
    sweep.grid.IsEchelon sweep.pivotColumns ∧
    ∀ (s : Solver n) (sol : Solution n), s.thresholds.sweep = settings → s.grid.orderRows.grid = g →
      s.solve.outcome = .ok sol → sol.kind = .singular →
        sol.sweep.pivotColumns = sweep.pivotColumns ∧
        ∃ basis : Basis, sol.basis = some basis ∧
          basis = sweep.pivotColumns.mapIdx (fun i c => ⟨c, (n - 1 - i : Nat), c⟩) ∧
          basis.freeColumns n = sol.sweep.freeColumns := by
  intro sweep
  have hreduced := hexact.isReduced_run hended
  refine ⟨hreduced.sorted, hreduced.lt, ?_, hreduced.echelon, ?_⟩
  . intro g' hperm
    have hnull := Grid.annihilates_of_perm hperm
    refine ⟨?_, ?_, ?_⟩
    . intro c
      rw [Grid.dependsOnEarlier_congr hnull]
      exact hexact.mem_pivotColumns_iff hended c
    . rw [Grid.rank_congr hnull]
      exact hexact.length_pivotColumns hended
    . intro settings' hexact' hended'
      exact hexact.pivotColumns_eq_of_perm hended hperm hexact' hended'
  . intro s sol hsettings hordered hsol hkind
    subst hsettings
    subst hordered
    obtain ⟨hgrid, hsummary⟩ := Solver.grid_of_solve hsol
    have hbasis := Solver.basis_of_solve hsol hkind
    rw [hgrid] at hbasis
    rw [hsummary]
    exact ⟨rfl, _, hbasis, hreduced.ofGrid_eq, hexact.freeColumns_ofGrid hended⟩

def doubledColumn : Grid 3 4 :=
  #v[#v[.one, .ofNat 2, .one, .ofNat 4], #v[.ofNat 2, .ofNat 4, .ofNat 3, .ofNat 9],
    #v[.one, .ofNat 2, .one, .ofNat 4]]

theorem pivotColumns_of_doubledColumn :
    let sweep := Sweep.run Thresholds.default.sweep doubledColumn (Nat.le_refl 3)
    Sweep.IsExact Thresholds.default.sweep doubledColumn (Nat.le_refl 3) ∧ sweep.ended = none ∧
      sweep.pivotColumns = [0, 2] ∧ doubledColumn.rank = 2 ∧ doubledColumn.DependsOnEarlier 1 ∧
      sweep.grid.IsEchelon sweep.pivotColumns := by
  have hexact : Sweep.IsExact Thresholds.default.sweep doubledColumn (Nat.le_refl 3) := by decide +kernel
  have hended : (Sweep.run Thresholds.default.sweep doubledColumn (Nat.le_refl 3)).ended = none := by
    decide +kernel
  have hpivots : (Sweep.run Thresholds.default.sweep doubledColumn (Nat.le_refl 3)).pivotColumns = [0, 2] := by
    decide +kernel
  obtain ⟨-, -, hrank, hechelon, -⟩ :=
    pivotColumns_of_exact_sweep Thresholds.default.sweep doubledColumn hexact hended
  obtain ⟨hmem, hlength, -⟩ := hrank doubledColumn Vector.Perm.rfl
  rw [hpivots] at hlength
  refine ⟨hexact, hended, hpivots, hlength.symm, ?_, hechelon⟩
  rw [← not_not (a := doubledColumn.DependsOnEarlier 1), ← hmem 1, hpivots]
  decide

end RowSweep
