import RowSweep.Proofs.Binary64.NonFinite
import RowSweep.Proofs.Multipliers.Cancel
import RowSweep.Proofs.Solver.Magnitudes

/-!
This module contains the value of the pivot product where an unknown has no pivot. It is zero only if nothing
overflows on the way: a product of the pivots before that unknown, or a later pivot, that is not finite makes it NaN.
-/

namespace RowSweep

open Binary64

attribute [local irreducible] unitsPerOne rangeEnd

namespace Binary64

theorem foldl_mul_nan (xs : List Binary64) : xs.foldl (· * ·) nan = nan := by
  induction xs with
  | nil => rfl
  | cons x xs ih => exact ih

theorem isZero_foldl_mul (xs : List Binary64) {product : Binary64} (hproduct : product.isZero = true) :
    ((xs.foldl (· * ·) product).isZero = true ∨ xs.foldl (· * ·) product = nan) ∧
      ((xs.foldl (· * ·) product).isZero = true ↔ ∀ x ∈ xs, x.isFinite = true) := by
  -- A product that is zero stays zero up to the first factor that is not finite, and is NaN from there on.
  induction xs generalizing product with
  | nil => simp [hproduct]
  | cons x xs ih =>
    rw [List.foldl_cons, List.forall_mem_cons]
    cases hx : x.isFinite with
    | true =>
      simpa using ih (isZero_mul_left hproduct hx)
    | false =>
      rw [mul_eq_nan_of_isZero hproduct hx, foldl_mul_nan]
      simp [isZero]

theorem within_foldl_mul {xs : List Binary64} {product : Binary64}
    (hxs : ∀ x ∈ xs, Within (2 ^ e * unitsPerOne) x) (hproduct : Within (2 ^ a * unitsPerOne) product)
    (hrange : a + e * xs.length ≤ 1023) :
    Within (2 ^ (a + e * xs.length) * unitsPerOne) (xs.foldl (· * ·) product) := by
  induction xs generalizing product a with
  | nil => exact hproduct
  | cons x xs ih =>
    rw [List.forall_mem_cons] at hxs
    rw [List.length_cons, Nat.mul_succ, Nat.add_comm _ e, ← Nat.add_assoc] at hrange ⊢
    apply ih hxs.right _ hrange
    have hfits : Fits (2 ^ (a + e) * unitsPerOne) := by
      obtain ⟨k, hk⟩ : ∃ k, k = 1074 := ⟨_, rfl⟩
      rw [unitsPerOne_eq hk, ← Nat.pow_add]
      exact fits_two_pow (by omega)
    apply within_mul hfits hproduct.isFinite hxs.left.isFinite
    calc
      product.magnitude * x.magnitude ≤ 2 ^ a * unitsPerOne * (2 ^ e * unitsPerOne) :=
        Nat.mul_le_mul hproduct.magnitude_le hxs.left.magnitude_le
      _ = 2 ^ (a + e) * unitsPerOne * unitsPerOne := by
        rw [Nat.pow_add]
        ac_rfl

end Binary64

namespace Grid

def pivots (g : Grid m (n + 1)) (h : n ≤ m) : List Binary64 :=
  (List.finRange n).map (g.pivot h)

def leadingProduct (g : Grid m (n + 1)) (h : n ≤ m) (k : Fin n) : Binary64 :=
  ((g.pivots h).take k).foldl (· * ·) .one

variable {g : Grid m (n + 1)} {h : n ≤ m}

theorem pivotProduct_eq_foldl : g.pivotProduct h = (g.pivots h).foldl (· * ·) .one := by
  unfold pivotProduct pivots
  rw [List.foldl_map]

theorem pivotProduct_eq_leadingProduct (k : Fin n) :
    g.pivotProduct h = ((g.pivots h).drop (k + 1)).foldl (· * ·) (g.leadingProduct h k * g.pivot h k) := by
  have hk : k.val < (g.pivots h).length := by simp [pivots]
  have hpivot : (g.pivots h)[k.val] = g.pivot h k := by simp [pivots]
  conv =>
    lhs
    rw [pivotProduct_eq_foldl, ← List.take_append_drop k (g.pivots h), List.drop_eq_getElem_cons hk, hpivot]
  rw [List.foldl_append, List.foldl_cons]
  rfl

theorem forall_mem_drop_pivots {P : Binary64 → Prop} (k : Fin n) :
    (∀ x ∈ (g.pivots h).drop (k + 1), P x) ↔ ∀ j : Fin n, k < j → P (g.pivot h j) := by
  constructor
  . intro hall j hj
    apply hall
    rw [List.mem_drop_iff_getElem]
    refine ⟨j - (k + 1), by simp [pivots]; omega, ?_⟩
    have hindex : k.val + 1 + (j.val - (k.val + 1)) = j := by omega
    simp [pivots, hindex]
  . intro hall x hx
    obtain ⟨i, hi, rfl⟩ := List.mem_drop_iff_getElem.mp hx
    have hin : k.val + 1 + i < n := by
      simp only [pivots, List.length_map, List.length_finRange] at hi
      omega
    have hpivot := hall ⟨k + 1 + i, hin⟩ (by simp [Fin.lt_def]; omega)
    simpa [pivots] using hpivot

theorem isZero_pivotProduct_iff (k : Fin n) (hk : (g.pivot h k).isZero = true) :
    ((g.pivotProduct h).isZero = true ∨ g.pivotProduct h = nan) ∧
      ((g.pivotProduct h).isZero = true ↔
        (g.leadingProduct h k).isFinite = true ∧ ∀ j : Fin n, k < j → (g.pivot h j).isFinite = true) := by
  rw [pivotProduct_eq_leadingProduct k, Binary64.mul_comm]
  cases hleading : (g.leadingProduct h k).isFinite with
  | true =>
    have hfold := isZero_foldl_mul ((g.pivots h).drop (k + 1)) (isZero_mul_left hk hleading)
    rw [forall_mem_drop_pivots (P := fun x => x.isFinite = true)] at hfold
    simpa using hfold
  | false =>
    rw [mul_eq_nan_of_isZero hk hleading, foldl_mul_nan]
    simp [isZero]

theorem exists_first_missing (hpivots : g.hasFullPivots h = false) :
    ∃ k : Fin n, (g.pivot h k).isZero = true ∧ ∀ j : Fin n, j < k → (g.pivot h j).isZero = false := by
  have hmissing : ∃ k : Fin n, (g.pivot h k).isZero = true := by
    simpa [hasFullPivots] using hpivots
  obtain ⟨k, hk, hfirst⟩ := WellFounded.has_min (wellFounded_lt (α := Fin n))
    {k | (g.pivot h k).isZero = true} hmissing
  refine ⟨k, hk, ?_⟩
  intro j hj
  rw [← Bool.not_eq_true]
  exact fun hzero => hfirst j hzero hj

theorem Within.leadingProduct (hg : g.Within (2 ^ e * unitsPerOne)) (k : Fin n) (hrange : e * (n - 1) ≤ 1023) :
    (g.leadingProduct h k).isFinite = true := by
  have hlength : ((g.pivots h).take k).length = k := by simp [pivots]
  have hle : e * k.val ≤ e * (n - 1) := Nat.mul_le_mul_left _ (by omega)
  have hone : Binary64.Within (2 ^ 0 * unitsPerOne) .one := ⟨isFinite_one, by rw [magnitude_one]; omega⟩
  refine (within_foldl_mul (e := e) ?_ hone (by rw [hlength]; omega)).isFinite
  intro x hx
  obtain ⟨j, -, rfl⟩ := List.mem_map.mp (List.mem_of_mem_take hx)
  exact hg (pivotRow h j) j.castSucc

end Grid

namespace Solver

variable {s : Solver n} {sol : Solution n}

theorem within_of_solve {M : Nat} (hM : Step.IsCellBound M) (hg : s.grid.Within M)
    (h : s.solve.outcome = .ok sol) : sol.grid.Within M := by
  rw [(grid_of_solve h).left]
  exact Sweep.within_run hM hg.orderRows

theorem hasFullPivots_of_singular (h : s.solve.outcome = .ok sol) (hkind : sol.kind = .singular) :
    sol.grid.hasFullPivots (Nat.le_refl n) = false := by
  rw [kind_eq_of_solve h] at hkind
  cases hfull : sol.grid.hasFullPivots (Nat.le_refl n) with
  | false => rfl
  | true =>
    rw [hfull] at hkind
    split at hkind
    next => cases hkind
    next => cases hkind

end Solver

theorem isZero_pivotProduct_of_singular (system : LinearSystem) (thresholds : Thresholds) (numerics : Numerics)
    (estimator : Estimator) (sol : Solution system.size)
    (hsol : (Solver.ofSystem system thresholds numerics estimator).solve.outcome = .ok sol)
    (hkind : sol.kind = .singular) :
    (∃ k : Fin system.size, (sol.grid.pivot (Nat.le_refl _) k).isZero = true ∧
      (∀ j < k, (sol.grid.pivot (Nat.le_refl _) j).isZero = false) ∧
      (sol.pivotProduct.isZero = true ↔ (sol.grid.leadingProduct (Nat.le_refl _) k).isFinite = true ∧
        ∀ j > k, (sol.grid.pivot (Nat.le_refl _) j).isFinite = true) ∧
      (system.grid.IsBounded →
        (sol.pivotProduct.isZero = true ↔ (sol.grid.leadingProduct (Nat.le_refl _) k).isFinite = true))) ∧
    (sol.pivotProduct.isZero = true ∨ sol.pivotProduct = .nan) ∧
    ∀ e, 53 ≤ e → e < 1022 → e * (system.size - 1) ≤ 1023 → system.grid.AtMost (2 ^ e) →
      sol.pivotProduct.isZero = true := by
  obtain ⟨k, hk, hfirst⟩ := Grid.exists_first_missing (Solver.hasFullPivots_of_singular hsol hkind)
  obtain ⟨hcases, hiff⟩ := Grid.isZero_pivotProduct_iff k hk
  rw [← (Solver.rates_of_solve hsol).pivotProduct_eq] at hcases hiff
  refine ⟨⟨k, hk, hfirst, hiff, ?_⟩, hcases, ?_⟩
  . intro hbounded
    obtain ⟨M, hM, hwithin⟩ := hbounded.exists_isCellBound
    have hgrid := Solver.within_of_solve hM hwithin hsol
    rw [hiff, and_iff_left]
    exact fun j _ => (hgrid (Grid.pivotRow (Nat.le_refl _) j) j.castSucc).isFinite
  . intro e hlow hhigh hrange hmost
    have hpow : (2 ^ e : ℚ) < 2 ^ 1022 := pow_lt_pow_right₀ one_lt_two hhigh
    obtain ⟨M, hM, hwithin, hmax⟩ := hmost.exists_isCellBound hpow
    rw [max_eq_left (pow_le_pow_right₀ one_le_two hlow)] at hmax
    have hle : M ≤ 2 ^ e * unitsPerOne := by exact_mod_cast hmax
    have hgrid : sol.grid.Within (2 ^ e * unitsPerOne) :=
      fun i j => (Solver.within_of_solve hM hwithin hsol i j).mono hle
    rw [hiff]
    exact ⟨hgrid.leadingProduct k hrange, fun j _ => (hgrid _ j.castSucc).isFinite⟩

def parallelLines : Grid 2 3 :=
  #v[#v[.one, .one, .ofNat 3], #v[.ofNat 2, .ofNat 2, .ofNat 6]]

theorem isZero_pivotProduct_of_parallelLines :
    ∃ system : LinearSystem, ∃ sol,
      (Solver.ofSystem system .default .standard Numerics.standard.estimator).solve.outcome = .ok sol ∧
      sol.kind = .singular ∧ system.grid.AtMost (2 ^ 53) ∧ sol.pivotProduct.isZero = true := by
  let system : LinearSystem := ⟨2, parallelLines, by decide, by decide +kernel⟩
  have hmost : system.grid.AtMost (2 ^ 53) := by
    show parallelLines.AtMost (2 ^ 53)
    decide +kernel
  have hkind :
      (Solver.ofSystem system .default .standard Numerics.standard.estimator).solve.outcome.map (·.kind) =
        .ok .singular := by
    decide +kernel
  cases hsol : (Solver.ofSystem system .default .standard Numerics.standard.estimator).solve.outcome with
  | error e =>
    rw [hsol] at hkind
    cases hkind
  | ok sol =>
    rw [hsol] at hkind
    have hsingular : sol.kind = .singular := Except.ok.inj hkind
    have hresult :=
      isZero_pivotProduct_of_singular system .default .standard Numerics.standard.estimator sol hsol hsingular
    exact ⟨system, sol, hsol, hsingular, hmost, hresult.right.right 53 (by decide) (by decide) (by decide) hmost⟩

def steepPivots : Grid 3 4 :=
  let steep := (Decimal.mk 1 200).toBinary64 false
  #v[#v[.zero, .zero, .zero, .zero], #v[.zero, steep, .zero, .one], #v[steep, .zero, .zero, .one]]

theorem not_isZero_pivotProduct_of_steepPivots :
    ∃ system : LinearSystem, ∃ sol,
      (Solver.ofSystem system .default .standard Numerics.standard.estimator).solve.outcome = .ok sol ∧
      sol.kind = .singular ∧ sol.pivotProduct.isZero = false := by
  -- Two pivots of `10 ^ 200` overflow before the missing one is reached.
  let system : LinearSystem := ⟨3, steepPivots, by decide, by decide +kernel⟩
  have hresult : (Solver.ofSystem system .default .standard Numerics.standard.estimator).solve.outcome.map
      (fun sol => (sol.kind, sol.pivotProduct)) = .ok (.singular, .nan) := by
    decide +kernel
  cases hsol : (Solver.ofSystem system .default .standard Numerics.standard.estimator).solve.outcome with
  | error e =>
    rw [hsol] at hresult
    cases hresult
  | ok sol =>
    rw [hsol] at hresult
    obtain ⟨hkind, hproduct⟩ := Prod.mk.inj (Except.ok.inj hresult)
    refine ⟨system, sol, hsol, hkind, ?_⟩
    rw [hproduct]
    rfl

end RowSweep
