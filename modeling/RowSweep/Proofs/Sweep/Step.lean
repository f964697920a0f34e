import RowSweep.Sweep
import RowSweep.Proofs.Multipliers.Bounds

/-!
This module contains what a single step of the sweep can do. The cases of a step are listed once, and all
that is kept by a step is derived from them.
-/

namespace RowSweep

open Binary64

attribute [local irreducible] unitsPerOne rangeEnd

namespace Grid

def Within (M : Nat) (g : Grid m n) : Prop :=
  ∀ (i : Fin m) (j : Fin n), Binary64.Within M g[i][j]

theorem Within.swap {g : Grid m n} (h : g.Within M) (hi : i < m) (hj : j < m) :
    Within M (g.swap i j) := by
  intro a b
  simp only [getElem_fin, Vector.getElem_swap]
  split
  . exact h ⟨j, hj⟩ b
  . split
    . exact h ⟨i, hi⟩ b
    . exact h a b

theorem Within.set {g : Grid m n} (h : g.Within M) (hi : i < m) {row : Row n}
    (hrow : ∀ j : Fin n, Binary64.Within M row[j]) : Within M (g.set i row) := by
  intro a b
  simp only [getElem_fin, Vector.getElem_set]
  split
  . exact hrow b
  . exact h a b

end Grid

namespace Step

inductive Pairing (settings : SweepSettings) (upper lower : Row (n + 1)) (c : Fin n) :
    Multipliers → Prop where
  | scaled : Pairing settings upper lower c (.scaling upper[c.castSucc] lower[c.castSucc])
  | whole (ratio : settings.integerRatio = true)
      (entries : Multipliers.integral? upper[c.castSucc] lower[c.castSucc] = some k)
      (exact : k.staysExact upper lower = true) : Pairing settings upper lower c k

inductive Effect (settings : SweepSettings) (g : Grid m (n + 1)) (c : Fin n) (r : Nat) (hr : r < m)
    (h : r + 1 < m) : Step m (n + 1) → Prop where
  | skip (upper : g[r][c.castSucc].isZero = true) : Effect settings g c r hr h (plain c r .skip g)
  | swap (upper : g[r][c.castSucc].isZero = false) (lower : g[r + 1][c.castSucc].isZero = true) :
      Effect settings g c r hr h (plain c r .swap (g.swap r (r + 1)))
  | combine (upper : g[r][c.castSucc].isZero = false) (lower : g[r + 1][c.castSucc].isZero = false)
      (pairing : Pairing settings g[r] g[r + 1] c k) :
      Effect settings g c r hr h (combined settings g c r h .combine k)
  | swapCombine (upper : g[r][c.castSucc].isZero = false) (lower : g[r + 1][c.castSucc].isZero = false)
      (pairing : Pairing settings g[r + 1] g[r] c k) :
      Effect settings g c r hr h (combined settings (g.swap r (r + 1)) c r h .swapCombine k)

variable {settings : SweepSettings} {g : Grid m (n + 1)} {c : Fin n} {r : Nat} {hr : r < m}
variable {h : r + 1 < m} {step : Step m (n + 1)} {k : Multipliers}

theorem integral_of_integral? (hk : Multipliers.integral? x y = some k) : k.integral = true := by
  obtain ⟨i, j, -, -, rfl⟩ := Multipliers.integral?_eq_some.mp hk
  rfl

theorem Pairing.eq_scaling {upper lower : Row (n + 1)} (pairing : Pairing settings upper lower c k)
    (hk : k.integral = false) : k = .scaling upper[c.castSucc] lower[c.castSucc] := by
  cases pairing with
  | scaled => rfl
  | whole ratio entries exact =>
    rw [integral_of_integral? entries] at hk
    cases hk

theorem Pairing.integral?_eq {upper lower : Row (n + 1)} (pairing : Pairing settings upper lower c k)
    (hk : k.integral = true) : Multipliers.integral? upper[c.castSucc] lower[c.castSucc] = some k := by
  cases pairing with
  | scaled => cases hk
  | whole ratio entries exact => exact entries

theorem multipliers_eq_scaling (hr : r < m) (hwhole : ∀ k, settings.integerRatio = true →
      Multipliers.integral? upper lower = some k → k.staysExact g[r] g[r + 1] = false) :
    multipliers settings g r h upper lower = .scaling upper lower := by
  unfold multipliers Multipliers.ofEntries
  cases hratio : settings.integerRatio with
  | false => simp
  | true =>
    cases hk : Multipliers.integral? upper lower with
    | none => simp
    | some k => simp [integral_of_integral? hk, hwhole k hratio hk]

theorem multipliers_eq_whole (hratio : settings.integerRatio = true)
    (hk : Multipliers.integral? upper lower = some k) (hexact : k.staysExact g[r] g[r + 1] = true) :
    multipliers settings g r h upper lower = k := by
  unfold multipliers Multipliers.ofEntries
  simp [hratio, hk, hexact]

variable (settings g c hr h) in
theorem multipliers_pairing :
    Pairing settings g[r] g[r + 1] c
      (multipliers settings g r h g[r][c.castSucc] g[r + 1][c.castSucc]) := by
  by_cases hwhole : ∃ k, settings.integerRatio = true ∧
      Multipliers.integral? g[r][c.castSucc] g[r + 1][c.castSucc] = some k ∧
        k.staysExact g[r] g[r + 1] = true
  . obtain ⟨k, hratio, hk, hexact⟩ := hwhole
    rw [multipliers_eq_whole hratio hk hexact]
    exact Pairing.whole hratio hk hexact
  . rw [multipliers_eq_scaling hr]
    . exact Pairing.scaled
    . intro k hratio hk
      cases hexact : k.staysExact g[r] g[r + 1] with
      | false => rfl
      | true => exact absurd ⟨k, hratio, hk, hexact⟩ hwhole

theorem effect_ofPair (settings : SweepSettings) (g : Grid m (n + 1)) (c : Fin n) (r : Nat)
    (hr : r < m) (h : r + 1 < m) : Effect settings g c r hr h (ofPair settings g c r h) := by
  unfold ofPair
  dsimp only
  split
  next hupper => exact Effect.skip hupper
  next hupper =>
    rw [Bool.not_eq_true] at hupper
    split
    next hlower => exact Effect.swap hupper hlower
    next hlower =>
      rw [Bool.not_eq_true] at hlower
      split
      next => exact Effect.swapCombine hupper hlower Pairing.scaled
      next => exact Effect.combine hupper hlower (multipliers_pairing settings g c hr h)

theorem combined_grid {action : Action} (hr : r < m) :
    (combined settings g c r h action k).grid =
      g.set r (k.combine (if k.integral then .zero else settings.zeroSnap) g[r] g[r + 1]).rescale.1 :=
  rfl

theorem combined_getElem_ne {action : Action} (hi : i < m) (hir : i ≠ r) :
    (combined settings g c r h action k).grid[i] = g[i] := by
  rw [combined_grid (Nat.lt_of_succ_lt h)]
  exact Vector.getElem_set_ne _ _ (Ne.symm hir)

theorem combined_getElem_self {action : Action} :
    (combined settings g c r h action k).grid[r] =
      (k.combine (if k.integral then .zero else settings.zeroSnap) g[r] g[r + 1]).rescale.1 := by
  rw [combined_grid hr]
  exact Vector.getElem_set_self _

theorem combined_divisor {action : Action} (hr : r < m) :
    (combined settings g c r h action k).divisor =
      (k.combine (if k.integral then .zero else settings.zeroSnap) g[r] g[r + 1]).rescale.2 :=
  rfl

namespace Effect

theorem column_eq (hstep : Effect settings g c r hr h step) : step.column = c := by
  cases hstep <;> rfl

theorem row_eq (hstep : Effect settings g c r hr h step) : step.row = r := by
  cases hstep <;> rfl

theorem getElem_of_ne (hstep : Effect settings g c r hr h step) (hi : i < m) (hir : i ≠ r)
    (hir1 : i ≠ r + 1) : step.grid[i] = g[i] := by
  cases hstep with
  | skip => rfl
  | swap =>
    show (g.swap r (r + 1))[i] = g[i]
    exact Vector.getElem_swap_of_ne hir hir1
  | combine => exact combined_getElem_ne hi hir
  | swapCombine =>
    rw [combined_getElem_ne hi hir]
    exact Vector.getElem_swap_of_ne hir hir1

theorem isZero_lower (hstep : Effect settings g c r hr h step) :
    step.grid[r + 1][c.castSucc].isZero = (g[r][c.castSucc].isZero && g[r + 1][c.castSucc].isZero) := by
  cases hstep with
  | skip hupper =>
    rw [hupper, Bool.true_and]
    rfl
  | swap hupper hlower =>
    rw [hupper, Bool.false_and]
    show (g.swap r (r + 1))[r + 1][c.castSucc].isZero = false
    rwa [Vector.getElem_swap_right]
  | combine hupper hlower => rw [combined_getElem_ne h (by omega), hupper, Bool.false_and, hlower]
  | swapCombine hupper hlower =>
    rw [combined_getElem_ne h (by omega), Vector.getElem_swap_right, hupper, Bool.false_and]

end Effect

/-!
### Bounds

Where no cell exceeds a bound that leaves room for the sum of two cells, no cell exceeds it after a step.
-/

structure IsCellBound (M : Nat) : Prop where
  fits : Fits M
  exactLimit_le : 2 ^ 53 * unitsPerOne ≤ M
  log2_lt : M.log2 < 2096

theorem two_mul_lt (M : Nat) : 2 * M < 2 ^ (M.log2 + 2) := by
  have := Nat.lt_log2_self (n := M)
  rw [Nat.pow_succ]
  omega

theorem IsCellBound.fits_two_mul (hM : IsCellBound M) : Fits (2 * M) := by
  apply fits_of_dvd (spareBits_dvd_two_mul hM.fits.dvd)
  have := hM.log2_lt
  apply Nat.lt_trans (two_mul_lt M)
  exact two_pow_lt_rangeEnd (by omega)

namespace Pairing

variable {upper lower : Row (n + 1)} (pairing : Pairing settings upper lower c k)
variable (entry : upper[c.castSucc].isZero = false)
variable (hupper : ∀ j : Fin (n + 1), Binary64.Within M upper[j])
variable (hlower : ∀ j : Fin (n + 1), Binary64.Within M lower[j])

include pairing entry hupper hlower

theorem isFinite_multipliers : k.target.isFinite = true ∧ k.copy.isFinite = true := by
  cases pairing with
  | scaled =>
    have := Multipliers.within_scaling (hupper c.castSucc).isFinite (hlower c.castSucc).isFinite entry
    exact ⟨this.left.isFinite, this.right.isFinite⟩
  | whole ratio entries exact =>
    have := Multipliers.isUnsigned_integral? entries
    exact ⟨this.left.isFinite, this.right.isFinite⟩

theorem within_combine (hM : IsCellBound M) (zeroSnap : Binary64) (j : Fin (n + 1)) :
    Binary64.Within (2 * M) (k.combine zeroSnap upper lower)[j] := by
  rw [Multipliers.getElem_combine]
  cases pairing with
  | scaled =>
    have := Multipliers.within_scaling (hupper c.castSucc).isFinite (hlower c.castSucc).isFinite entry
    exact Multipliers.within_combineCell hM.fits_two_mul this.left this.right (hupper j) (hlower j)
      hM.fits
  | whole ratio entries exact =>
    have hunsigned := Multipliers.isUnsigned_integral? entries
    apply (Multipliers.within_combineCell_of_staysExact hunsigned.left hunsigned.right
      (fun i => (hupper i).isFinite) (fun i => (hlower i).isFinite) exact j).mono
    have := hM.exactLimit_le
    omega

theorem within_rescale (hM : IsCellBound M) (zeroSnap : Binary64) :
    (∀ j : Fin (n + 1), Binary64.Within M (k.combine zeroSnap upper lower).rescale.1[j]) ∧
      (k.combine zeroSnap upper lower).rescale.2.isFinite = true := by
  have hrow := within_combine pairing entry hupper hlower hM zeroSnap
  constructor
  . exact Row.within_rescale (fun j => (hrow j).isFinite) hM.exactLimit_le
  . have := hM.log2_lt
    apply Row.isFinite_divisor (e := M.log2 + 2) (fun j => (hrow j).isFinite) (by omega)
    intro j
    exact Nat.lt_of_le_of_lt (hrow j).magnitude_le (two_mul_lt M)

theorem isZero_rescale (hM : IsCellBound M) (zeroSnap : Binary64) (j : Fin (n + 1))
    (hx : upper[j].isZero = true) (hy : lower[j].isZero = true) :
    (k.combine zeroSnap upper lower).rescale.1[j].isZero = true := by
  have hrow := within_combine pairing entry hupper hlower hM zeroSnap
  have hmul := isFinite_multipliers pairing entry hupper hlower
  rw [Row.isZero_rescale_iff (fun j => (hrow j).isFinite), Multipliers.getElem_combine]
  exact Or.inl (Multipliers.isZero_combineCell hmul.left hmul.right hx hy)

end Pairing

namespace Effect

theorem within (hM : IsCellBound M) (hg : g.Within M) (hstep : Effect settings g c r hr h step) :
    step.grid.Within M ∧ step.divisor.isFinite = true := by
  have hupper := hg ⟨r, hr⟩
  have hlower := hg ⟨r + 1, h⟩
  cases hstep with
  | skip => exact ⟨hg, isFinite_one⟩
  | swap => exact ⟨hg.swap hr h, isFinite_one⟩
  | combine upper lower pairing =>
    have hrow := pairing.within_rescale upper hupper hlower hM
    exact ⟨hg.set hr (hrow _).left, (hrow _).right⟩
  | swapCombine upper lower pairing =>
    have hrow := pairing.within_rescale lower hlower hupper hM
    rw [combined_grid hr, combined_divisor hr, Vector.getElem_swap_left, Vector.getElem_swap_right]
    exact ⟨(hg.swap hr h).set hr (hrow _).left, (hrow _).right⟩

theorem isZero_of_isZero (hM : IsCellBound M) (hg : g.Within M)
    (hstep : Effect settings g c r hr h step) (j : Fin (n + 1)) (hx : g[r][j].isZero = true)
    (hy : g[r + 1][j].isZero = true) :
    step.grid[r][j].isZero = true ∧ step.grid[r + 1][j].isZero = true := by
  have hupper := hg ⟨r, hr⟩
  have hlower := hg ⟨r + 1, h⟩
  cases hstep with
  | skip => exact ⟨hx, hy⟩
  | swap =>
    simp only [plain, Vector.getElem_swap_left, Vector.getElem_swap_right]
    exact ⟨hy, hx⟩
  | combine upper lower pairing =>
    rw [combined_getElem_self, combined_getElem_ne h (by omega)]
    exact ⟨pairing.isZero_rescale upper hupper hlower hM _ j hx hy, hy⟩
  | swapCombine upper lower pairing =>
    rw [combined_getElem_self, combined_getElem_ne h (by omega), Vector.getElem_swap_left,
      Vector.getElem_swap_right]
    exact ⟨pairing.isZero_rescale lower hlower hupper hM _ j hy hx, hx⟩

end Effect

end Step

end RowSweep
