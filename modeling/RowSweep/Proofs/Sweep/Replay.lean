import RowSweep.Proofs.Row.Division

/-!
This module contains the replay of a step: what it did to the grid before it, told by nothing but what it reports.
-/

namespace RowSweep

open Binary64

namespace Step

/--
Whether the multipliers, the sign and the divisor that a step reports make `cell` out of a cell of its row and the
one in its source row. A sum that is small beside its two terms may have been dropped.
-/
def Combines (zeroSnap : Binary64) (step : Step m n) (target source cell : Binary64) : Prop :=
  let u := target * step.targetMultiplier
  let w := source * step.sign.apply step.copyMultiplier
  cell = (u + w) / step.divisor ∨
    (cell = .zero ∧ (u + w).abs.le (zeroSnap * u.abs.max w.abs) = true)

structure CombinesRows (zeroSnap : Binary64) (g : Grid m n) (step : Step m n) (hrow : step.row < m)
    (hsource : step.sourceRow < m) : Prop where
  others : ∀ i (hi : i < m), i ≠ step.row → step.grid[i] = g[i]
  cells : ∀ j : Fin n, step.Combines zeroSnap g[step.row][j] g[step.sourceRow][j] step.grid[step.row][j]

inductive Follows (zeroSnap : Binary64) (g : Grid m n) (step : Step m n) : Prop where
  | skip (action : step.action = .skip) (grid : step.grid = g)
  | swap (action : step.action = .swap) (hrow : step.row < m) (hsource : step.sourceRow < m)
      (grid : step.grid = g.swap step.row step.sourceRow)
  | combine (action : step.action = .combine) (hrow : step.row < m) (hsource : step.sourceRow < m)
      (rows : CombinesRows zeroSnap g step hrow hsource)
  | swapCombine (action : step.action = .swapCombine) (hrow : step.row < m) (hsource : step.sourceRow < m)
      (rows : CombinesRows zeroSnap (g.swap step.row step.sourceRow) step hrow hsource)

variable {settings : SweepSettings} {g : Grid m (n + 1)} {c : Fin n} {r : Nat} {h : r + 1 < m}

theorem combineCell_snapped (k : Multipliers) (zeroSnap x y : Binary64) :
    let u := x * k.target
    let w := y * k.sign.apply k.copy
    k.combineCell (if k.integral then .zero else zeroSnap) x y = u + w ∨
      (k.combineCell (if k.integral then .zero else zeroSnap) x y = .zero ∧
        (u + w).abs.le (zeroSnap * u.abs.max w.abs) = true) := by
  unfold Multipliers.combineCell
  dsimp only
  cases k.integral with
  | true =>
    apply Or.inl
    simp [isPositive, zero]
  | false =>
    simp only [Bool.false_eq_true, ↓reduceIte]
    split
    next hsnap =>
      rw [Bool.and_eq_true] at hsnap
      exact Or.inr ⟨rfl, hsnap.right⟩
    next => exact Or.inl rfl

theorem combinesRows_combined (action : Action) (k : Multipliers) (hr : r < m)
    (hdivisor : (combined settings g c r h action k).divisor.isFinite = true) :
    CombinesRows settings.zeroSnap g (combined settings g c r h action k) hr h := by
  constructor
  case others =>
    intro i hi hne
    exact combined_getElem_ne hi hne
  case cells =>
    intro j
    rw [combined_divisor hr] at hdivisor
    show Combines settings.zeroSnap (combined settings g c r h action k) g[r][j] g[r + 1][j]
      (combined settings g c r h action k).grid[r][j]
    rw [combined_getElem_self, Row.getElem_rescale hdivisor, Multipliers.getElem_combine]
    cases combineCell_snapped k settings.zeroSnap g[r][j] g[r + 1][j] with
    | inl hsum =>
      apply Or.inl
      rw [hsum]
      rfl
    | inr hsnap =>
      have hpositive := Row.isUnsigned_divisor hdivisor
      apply Or.inr
      rw [hsnap.left]
      exact ⟨zero_div hpositive.left hpositive.right, hsnap.right⟩

theorem Effect.follows {hr : r < m} {step : Step m (n + 1)} (hstep : Effect settings g c r hr h step)
    (hdivisor : step.divisor.isFinite = true) : step.Follows settings.zeroSnap g := by
  cases hstep with
  | skip => exact Follows.skip rfl rfl
  | swap => exact Follows.swap rfl hr h rfl
  | combine => exact Follows.combine rfl hr h (combinesRows_combined _ _ hr hdivisor)
  | swapCombine => exact Follows.swapCombine rfl hr h (combinesRows_combined _ _ hr hdivisor)

end Step

end RowSweep
