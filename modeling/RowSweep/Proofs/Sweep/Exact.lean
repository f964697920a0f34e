import RowSweep.Proofs.Grid.Reduced
import RowSweep.Proofs.Sweep.Echelon

/-!
This module contains sweeps over integers in which every combination stays in the exact range. Such a sweep does
not round: it only reorders rows and replaces them by combinations, so it keeps the solutions, and it ends in
echelon form unless it meets a contradiction.
-/

namespace RowSweep

open Binary64

attribute [local irreducible] unitsPerOne rangeEnd

namespace Step

def IsExact (settings : SweepSettings) (g : Grid m (n + 1)) (c : Fin n) (r : Nat) (hr : r < m)
    (h : r + 1 < m) : Prop :=
  g[r][c.castSucc].isZero = false → g[r + 1][c.castSucc].isZero = false →
    settings.integerRatio = true ∧ Row.CombinesExactly g[r] g[r + 1] c.castSucc

instance {hr : r < m} {h : r + 1 < m} : Decidable (IsExact settings g c r hr h) :=
  inferInstanceAs (Decidable (_ → _ → _ ∧ _))

inductive ExactEffect (g : Grid m (n + 1)) (c : Fin n) (r : Nat) (hr : r < m) (h : r + 1 < m)
    (step : Step m (n + 1)) : Prop where
  | skip (upper : g[r][c.castSucc].isZero = true) (grid_eq : step.grid = g)
  | swap (upper : g[r][c.castSucc].isZero = false) (lower : g[r + 1][c.castSucc].isZero = true)
      (grid_eq : step.grid = g.swap r (r + 1))
  | combine (lower : g[r + 1][c.castSucc].isZero = false) (combination : Row.IsCombination merged g[r] g[r + 1])
      (cleared : merged[c.castSucc].isZero = true) (bound : merged.largest ≤ 2 * (g[r].largest * g[r + 1].largest))
      (grid_eq : step.grid = g.set r merged)

variable {settings : SweepSettings} {g : Grid m (n + 1)} {c : Fin n} {r : Nat} {hr : r < m}
variable {h : r + 1 < m} {step : Step m (n + 1)}

theorem exactEffect_ofPair (hg : g.IsInteger)
    (hexact : IsExact settings g c r hr h) :
    ExactEffect g c r hr h (ofPair settings g c r h) ∧
      (ofPair settings g c r h).divisor.isFinite = true := by
  cases hupper : g[r][c.castSucc].isZero with
  | true =>
    have hskip : ofPair settings g c r h = plain c r .skip g := by
      simp [ofPair, hupper]
    rw [hskip]
    exact ⟨ExactEffect.skip hupper rfl, isFinite_one⟩
  | false =>
    cases hlower : g[r + 1][c.castSucc].isZero with
    | true =>
      have hswap : ofPair settings g c r h = plain c r .swap (g.swap r (r + 1)) := by
        simp [ofPair, hupper, hlower]
      rw [hswap]
      exact ⟨ExactEffect.swap hupper hlower rfl, isFinite_one⟩
    | false =>
      have hu : Row.IsInteger g[r] := hg ⟨r, hr⟩
      have hl : Row.IsInteger g[r + 1] := hg ⟨r + 1, h⟩
      obtain ⟨hratio, hcombines⟩ := hexact hupper hlower
      obtain ⟨k, t, w, hk, htarget, hcopy, ht, htle, hwle, hle⟩ :=
        Multipliers.exists_integral? hu hl hupper hlower hcombines
      have hstays := Multipliers.staysExact_of_le htarget hcopy hu hl hle
      have hmultipliers := multipliers_eq_whole (h := h) hratio hk hstays
      have hwhole := integral_of_integral? hk
      rw [ofPair_of_whole hupper hlower (by rw [hmultipliers, hwhole]), hmultipliers]
      obtain ⟨hcombination, hdivisor, hlargest⟩ := Multipliers.isCombination_combine hu hl htarget hcopy hle ht
      have hcleared := Multipliers.isZero_rescale_combine hu hl htarget hcopy hle
        (Multipliers.isZero_combineCell_integral hk hupper hlower)
      constructor
      . apply ExactEffect.combine hlower hcombination hcleared
        . have hupperTerm := Nat.mul_le_mul_right g[r].largest htle
          have hlowerTerm := Nat.mul_le_mul_right g[r + 1].largest hwle
          have hcomm := Nat.mul_comm g[r + 1].largest g[r].largest
          omega
        . rw [combined_grid hr, if_pos hwhole]
      . rw [combined_divisor hr, if_pos hwhole]
        exact hdivisor

namespace ExactEffect

variable (hg : g.IsInteger) (hstep : ExactEffect g c r hr h step)

include hg hstep

theorem isInteger : step.grid.IsInteger := by
  cases hstep with
  | skip upper grid_eq => rwa [grid_eq]
  | swap upper lower grid_eq =>
    rw [grid_eq]
    exact Grid.isInteger_of_perm (Vector.swap_perm hr h).symm hg
  | combine lower combination cleared bound grid_eq =>
    rw [grid_eq]
    exact Grid.isInteger_set hr hg combination.integer

theorem annihilates_iff (z : Fin (n + 1) → ℚ) : step.grid.Annihilates z ↔ g.Annihilates z := by
  cases hstep with
  | skip upper grid_eq => rw [grid_eq]
  | swap upper lower grid_eq =>
    rw [grid_eq]
    exact Grid.annihilates_of_perm (Vector.swap_perm hr h) z
  | combine lower combination cleared bound grid_eq =>
    rw [grid_eq]
    exact Grid.annihilates_set hr h hg combination z

theorem isZero_of_isZero (j : Fin (n + 1)) (hx : g[r][j].isZero = true) (hy : g[r + 1][j].isZero = true) :
    step.grid[r][j].isZero = true ∧ step.grid[r + 1][j].isZero = true := by
  cases hstep with
  | skip upper grid_eq =>
    simp only [grid_eq]
    exact ⟨hx, hy⟩
  | swap upper lower grid_eq =>
    simp only [grid_eq, Vector.getElem_swap_left, Vector.getElem_swap_right]
    exact ⟨hy, hx⟩
  | combine lower combination cleared bound grid_eq =>
    simp only [grid_eq, Vector.getElem_set_self, Vector.getElem_set_ne _ _ (Nat.ne_of_lt (Nat.lt_succ_self r))]
    exact ⟨combination.isZero_of_isZero (hg ⟨r, hr⟩) (hg ⟨r + 1, h⟩) hx hy, hy⟩

omit hg in
theorem isZero_upper : step.grid[r][c.castSucc].isZero = true := by
  cases hstep with
  | skip upper grid_eq =>
    simp only [grid_eq]
    exact upper
  | swap upper lower grid_eq =>
    simp only [grid_eq, Vector.getElem_swap_left]
    exact lower
  | combine lower combination cleared bound grid_eq =>
    simp only [grid_eq, Vector.getElem_set_self]
    exact cleared

end ExactEffect

end Step

namespace Grid

structure Matches (g g' : Grid m n) : Prop where
  integer : g'.IsInteger
  annihilates_iff : ∀ z, g'.Annihilates z ↔ g.Annihilates z

end Grid

namespace Sweep

structure IsExact (settings : SweepSettings) (g : Grid m (n + 1)) (h : n ≤ m) : Prop where
  integer : g.IsInteger
  steps : ∀ (c : Fin n) (r : Nat) (hr : r < m) (hr1 : r + 1 < m), Reaches settings g h c r hr1 →
    Step.IsExact settings (before settings g h c r hr).grid c r hr hr1

section decidable

variable {settings : SweepSettings} {g : Grid m (n + 1)} {h : n ≤ m}

instance : Decidable (IsExact settings g h) :=
  decidable_of_iff (g.IsInteger ∧ ∀ c r hr hr1, Reaches settings g h c r hr1 →
      Step.IsExact settings (before settings g h c r hr).grid c r hr hr1)
    ⟨fun hexact => ⟨hexact.left, hexact.right⟩, fun hexact => ⟨hexact.integer, hexact.steps⟩⟩

end decidable

namespace IsExact

variable {settings : SweepSettings} {g : Grid m (n + 1)} {h : n ≤ m} (hexact : IsExact settings g h)

include hexact

theorem effect_stepAt (c : Fin n) (hr : r < m) (hr1 : r + 1 < m) (reached : Reaches settings g h c r hr1)
    (hg : (before settings g h c r hr).grid.IsInteger) :
    Step.ExactEffect (before settings g h c r hr).grid c r hr hr1 (stepAt settings g h c r hr1) ∧
      (stepAt settings g h c r hr1).divisor.isFinite = true :=
  Step.exactEffect_ofPair hg (hexact.steps c r hr hr1 reached)

theorem matches_stepAt (c : Fin n) (hr : r + 1 < m) (reached : Reaches settings g h c r hr)
    (hg : g.Matches (before settings g h c r (Nat.lt_of_succ_lt hr)).grid) :
    g.Matches (stepAt settings g h c r hr).grid := by
  have hstep := (hexact.effect_stepAt c (Nat.lt_of_succ_lt hr) hr reached hg.integer).left
  refine ⟨hstep.isInteger hg.integer, ?_⟩
  intro z
  rw [hstep.annihilates_iff hg.integer, hg.annihilates_iff]

theorem matches_start : g.Matches g :=
  ⟨hexact.integer, fun _ => Iff.rfl⟩

theorem matches_upTo (hp : p ≤ n) : g.Matches (upTo settings g h p).grid :=
  grid_upTo_of_step hexact.matches_start (fun c _ hr reached hg => hexact.matches_stepAt c hr reached hg) hp

theorem matches_before (c : Fin n) (hr : r < m) (hopen : r ≤ (upTo settings g h c).openRows - 1) :
    g.Matches (before settings g h c r hr).grid :=
  grid_before_of_step c (fun _ hr reached hg => hexact.matches_stepAt c hr reached hg)
    (hexact.matches_upTo (Nat.le_of_lt c.isLt)) hr hopen

theorem matches_run : g.Matches (run settings g h).grid :=
  grid_run_of_step hexact.matches_start (fun c _ hr reached hg => hexact.matches_stepAt c hr reached hg)

theorem effect_of_reaches (c : Fin n) (hr : r < m) (hr1 : r + 1 < m) (reached : Reaches settings g h c r hr1) :
    Step.ExactEffect (before settings g h c r hr).grid c r hr hr1 (stepAt settings g h c r hr1) ∧
      (stepAt settings g h c r hr1).divisor.isFinite = true := by
  have hlt := reached.lt
  exact hexact.effect_stepAt c hr hr1 reached (hexact.matches_before c hr (by omega)).integer

theorem keepsZeros : KeepsZeros settings g h := by
  intro c r hr1 reached j hupper hlower
  by_cases hj : j < n + 1
  . have hlt := reached.lt
    have hr : r < m := by omega
    have hg := (hexact.matches_before c hr (by omega)).integer
    have hkept := (hexact.effect_of_reaches c hr hr1 reached).left.isZero_of_isZero hg ⟨j, hj⟩
      ((Grid.not_hasEntry_iff hr hj).mp hupper) ((Grid.not_hasEntry_iff hr1 hj).mp hlower)
    exact ⟨(Grid.not_hasEntry_iff hr hj).mpr hkept.left, (Grid.not_hasEntry_iff hr1 hj).mpr hkept.right⟩
  . exact ⟨fun hentry => hj hentry.2.1, fun hentry => hj hentry.2.1⟩

theorem stepClears (c : Fin n) (r : Nat) (hr1 : r + 1 < m) (reached : Reaches settings g h c r hr1) :
    StepClears settings g h c r hr1 := by
  have hr : r < m := Nat.lt_of_succ_lt hr1
  unfold StepClears
  rw [Grid.not_hasEntry_castSucc hr]
  exact (hexact.effect_of_reaches c hr hr1 reached).left.isZero_upper

theorem ended : (run settings g h).ended = none ∨ (run settings g h).ended = some .contradiction :=
  ended_run fun c _ hr reached => (hexact.effect_of_reaches c (Nat.lt_of_succ_lt hr) hr reached).right

end IsExact

theorem IsExact.isReduced_run {g : Grid n (n + 1)} {h : n ≤ n} (hexact : IsExact settings g h)
    (hended : (run settings g h).ended = none) :
    (run settings g h).grid.IsReduced (run settings g h).pivotColumns := by
  have hpivoted := pivoted_run hexact.keepsZeros hended
  have hadd := hpivoted.openRows_add
  constructor
  case integer => exact hexact.matches_run.integer
  case echelon => exact isEchelon_run hexact.keepsZeros hexact.stepClears hended
  case sorted => exact hpivoted.pivot_sorted
  case lt => exact fun c hc => (hpivoted.lt_iff c).mpr (Or.inl hc)
  case length_le => omega

end Sweep

end RowSweep
