import Mathlib.Data.List.Sort
import RowSweep.Grid

/-!
This module contains the places of nonzero entries in a grid, and the echelon form that a sweep aims at.
-/

namespace RowSweep

theorem eq_range_of_pairwise {xs : List Nat} (hsorted : xs.Pairwise (· < ·))
    (hmem : ∀ c, c ∈ xs ↔ c < f) : xs = List.range f := by
  apply hsorted.eq_of_mem_iff List.pairwise_lt_range
  intro c
  rw [hmem, List.mem_range]

namespace Grid

def HasEntry (g : Grid m n) (r c : Nat) : Prop :=
  ∃ (hr : r < m) (hc : c < n), g[r][c].isZero = false

instance (g : Grid m n) (r c : Nat) : Decidable (g.HasEntry r c) :=
  if hr : r < m then
    if hc : c < n then
      decidable_of_iff (g[r][c].isZero = false) ⟨fun h => ⟨hr, hc, h⟩, fun ⟨_, _, h⟩ => h⟩
    else .isFalse fun ⟨_, hc', _⟩ => hc hc'
  else .isFalse fun ⟨hr', _⟩ => hr hr'

theorem hasEntry_iff {g : Grid m n} (hr : r < m) (hc : c < n) :
    g.HasEntry r c ↔ g[r][c].isZero = false :=
  ⟨fun ⟨_, _, h⟩ => h, fun h => ⟨hr, hc, h⟩⟩

theorem not_hasEntry_iff {g : Grid m n} (hr : r < m) (hc : c < n) :
    ¬ g.HasEntry r c ↔ g[r][c].isZero = true := by
  rw [hasEntry_iff hr hc, Bool.not_eq_false]

theorem hasEntry_castSucc {g : Grid m (n + 1)} (hr : r < m) (c : Fin n) :
    g.HasEntry r c ↔ g[r][c.castSucc].isZero = false :=
  hasEntry_iff hr c.castSucc.isLt

theorem not_hasEntry_castSucc {g : Grid m (n + 1)} (hr : r < m) (c : Fin n) :
    ¬ g.HasEntry r c ↔ g[r][c.castSucc].isZero = true :=
  not_hasEntry_iff hr c.castSucc.isLt

theorem hasEntry_congr {g g' : Grid m n} (h : ∀ hr : r < m, g[r] = g'[r]) :
    g.HasEntry r c ↔ g'.HasEntry r c := by
  by_cases hr : r < m
  . unfold HasEntry
    simp [h hr]
  . constructor
    . intro hentry
      exact absurd hentry.1 hr
    . intro hentry
      exact absurd hentry.1 hr

/--
Echelon form from the bottom up: pivot `i` is the first entry of row `n - 1 - i`, and no unknown occurs in the
rows above the pivots.
-/
structure IsEchelon (g : Grid m (n + 1)) (pivots : List Nat) : Prop where
  pivot : ∀ i (hi : i < pivots.length), g.HasEntry (n - 1 - i) pivots[i]
  before : ∀ i (hi : i < pivots.length), ∀ c < pivots[i], ¬ g.HasEntry (n - 1 - i) c
  above : ∀ r, r + pivots.length < n → ∀ c < n, ¬ g.HasEntry r c

theorem hasFullPivots_iff_hasEntry {g : Grid m (n + 1)} {h : n ≤ m} :
    g.hasFullPivots h = true ↔ ∀ k < n, g.HasEntry (n - 1 - k) k := by
  unfold hasFullPivots
  rw [List.all_eq_true]
  constructor
  . intro hall k hk
    have hpivot := hall ⟨k, hk⟩ (List.mem_finRange _)
    exact ⟨by omega, by omega, by simpa [pivot, pivotRow, getElem_fin] using hpivot⟩
  . intro hall k _
    obtain ⟨_, _, hentry⟩ := hall k k.isLt
    simpa [pivot, pivotRow, getElem_fin] using hentry

end Grid

end RowSweep
