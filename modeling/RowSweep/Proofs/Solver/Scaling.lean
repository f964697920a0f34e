import RowSweep.Proofs.Solver.Magnitudes
import RowSweep.Proofs.Sweep.Fractions
import RowSweep.Proofs.Sweep.Integers

/-!
This module contains what multiplying a whole system by a power of two does to the result: the kind and the pivots stay
as they are, as long as both sweeps decide alike. Those of values below one half without a zero in the first column do,
and those of small integers do, but one of integers beside one of values below one half need not.
-/

namespace RowSweep

open Binary64

attribute [local irreducible] unitsPerOne rangeEnd

/-!
### The range of the entries
-/

namespace Binary64

def IsModerate (k : Int) (x : Binary64) : Prop :=
  x.isFinite = true ∧ (x.isZero = true ∨
    (2 ^ (-900 : Int) ≤ |x.toRat| * 2 ^ k ∧ |x.toRat| * 2 ^ k ≤ 2 ^ (900 : Int)))

theorem abs_toRat_mul_two_zpow (x : Binary64) (k : Int) :
    |x.toRat| * 2 ^ k = x.magnitude * 2 ^ k.toNat / (unitsPerOne * 2 ^ (-k).toNat) := by
  rw [abs_toRat, two_zpow_eq_div, div_mul_div_comm]

theorem isModerate_iff {k : Int} {x : Binary64} :
    x.IsModerate k ↔ x.isFinite = true ∧ (x.isZero = true ∨
      (2 ^ 174 * 2 ^ (-k).toNat ≤ x.magnitude * 2 ^ k.toNat ∧
        x.magnitude * 2 ^ k.toNat ≤ 2 ^ 1974 * 2 ^ (-k).toNat)) := by
  obtain ⟨low, hlow⟩ : ∃ low, low = 174 := ⟨_, rfl⟩
  obtain ⟨high, hhigh⟩ : ∃ high, high = 1974 := ⟨_, rfl⟩
  obtain ⟨one, hone⟩ : ∃ one, one = 1074 := ⟨_, rfl⟩
  have hlowInt : (-900 : Int) = low - one := by omega
  have hhighInt : (900 : Int) = high - one := by omega
  have hpos : (0 : ℚ) < unitsPerOne * 2 ^ (-k).toNat := mul_pos unitsPerOne_cast_pos (pow_pos two_pos _)
  have hbound : ∀ p : Nat, (2 : ℚ) ^ ((p : Int) - one) * (unitsPerOne * 2 ^ (-k).toNat) =
      ((2 ^ p * 2 ^ (-k).toNat : Nat) : ℚ) := by
    intro p
    rw [unitsPerOne_eq hone, zpow_sub₀ two_ne_zero, zpow_natCast, zpow_natCast]
    push_cast
    field_simp
  have hscaled : (x.magnitude * 2 ^ k.toNat : ℚ) = ((x.magnitude * 2 ^ k.toNat : Nat) : ℚ) := by push_cast; rfl
  unfold IsModerate
  rw [abs_toRat_mul_two_zpow, le_div_iff₀ hpos, div_le_iff₀ hpos, hlowInt, hhighInt, hbound, hbound, hscaled,
    Nat.cast_le, Nat.cast_le, hlow, hhigh]

instance (k : Int) (x : Binary64) : Decidable (x.IsModerate k) :=
  decidable_of_iff' _ isModerate_iff

theorem IsModerate.magnitude_cases {x : Binary64} {k : Int} (h : x.IsModerate k) :
    (x.magnitude = 0 ∨ 2 ^ 174 * 2 ^ (-k).toNat ≤ x.magnitude * 2 ^ k.toNat) ∧
      x.magnitude * 2 ^ k.toNat ≤ 2 ^ 1974 * 2 ^ (-k).toNat := by
  obtain ⟨hfinite, hrange⟩ := isModerate_iff.mp h
  cases hrange with
  | inl hzero =>
    rw [isZero_iff_magnitude hfinite] at hzero
    refine ⟨Or.inl hzero, ?_⟩
    rw [hzero, Nat.zero_mul]
    exact Nat.zero_le _
  | inr hrange => exact ⟨Or.inr hrange.left, hrange.right⟩

theorem IsModerate.shifted_scale {x : Binary64} {k : Int} (h : x.IsModerate 0) (hk : x.IsModerate k) :
    Shifted k x (x.scale k) ∧ Within (2 ^ 1974) x ∧ Within (2 ^ 1974) (x.scale k) := by
  obtain ⟨hlow, hhigh⟩ := h.magnitude_cases
  obtain ⟨hlow', hhigh'⟩ := hk.magnitude_cases
  obtain ⟨top, htop⟩ : ∃ top, top = 1974 := ⟨_, rfl⟩
  rw [← htop] at hhigh hhigh' ⊢
  have hscale := (within_scale (fits_two_pow (by omega)) h.left hhigh').left
  refine ⟨Binary64.shifted_scale h.left ?_ ?_ hscale.isFinite, ⟨h.left, by simpa using hhigh⟩, hscale⟩
  . apply hlow.imp_right
    intro hle
    simp only [Int.neg_zero, Int.toNat_zero, Nat.pow_zero, Nat.mul_one] at hle
    omega
  . apply hlow'.imp_right
    intro hle
    exact Nat.le_trans (Nat.mul_le_mul_right _ (Nat.pow_le_pow_right (by decide) (by decide))) hle

end Binary64

/-!
### Grids
-/

namespace Grid

def IsModerate (k : Int) (g : Grid m n) : Prop :=
  ∀ (i : Fin m) (j : Fin n), g[i][j].IsModerate k

instance (k : Int) (g : Grid m n) : Decidable (g.IsModerate k) :=
  inferInstanceAs (Decidable (∀ (i : Fin m) (j : Fin n), g[i][j].IsModerate k))

def scale (k : Int) (g : Grid m n) : Grid m n :=
  g.map fun row => row.map (·.scale k)

theorem getElem_scale (k : Int) (g : Grid m n) (i : Fin m) (j : Fin n) : (g.scale k)[i][j] = g[i][j].scale k := by
  simp [scale, getElem_fin]

theorem isCellBound_two_pow : Step.IsCellBound (2 ^ 1974) := by
  obtain ⟨top, htop⟩ : ∃ top, top = 1974 := ⟨_, rfl⟩
  obtain ⟨one, hone⟩ : ∃ one, one = 1074 := ⟨_, rfl⟩
  rw [← htop]
  refine ⟨fits_two_pow (by omega), ?_, ?_⟩
  . rw [unitsPerOne_eq hone, ← Nat.pow_add]
    exact Nat.pow_le_pow_right (by decide) (by omega)
  . rw [Nat.log2_two_pow]
    omega

section moderate

variable {g : Grid m n} {k : Int} (h : g.IsModerate 0) (hk : g.IsModerate k)

include h hk

theorem IsModerate.inStep : g.InStep (g.scale k) := by
  intro i
  refine ⟨k, fun j => ?_⟩
  rw [getElem_scale]
  exact ((h i j).shifted_scale (hk i j)).left

theorem IsModerate.within : g.Within (2 ^ 1974) :=
  fun i j => ((h i j).shifted_scale (hk i j)).right.left

theorem IsModerate.within_scale : (g.scale k).Within (2 ^ 1974) := by
  intro i j
  rw [getElem_scale]
  exact ((h i j).shifted_scale (hk i j)).right.right

end moderate

end Grid

/-!
### The order of the rows
-/

namespace RowOrder

variable {g g' : Grid m (n + 1)}

theorem startsWithZero_eq (h : g.InStep g') (hi : i < m) : startsWithZero g'[i] = startsWithZero g[i] :=
  h.isZero_eq hi 0

theorem inStep_bubbleUp (h : g.InStep g') (hi : i < m) :
    (bubbleUp g i hi).1.InStep (bubbleUp g' i hi).1 ∧ (bubbleUp g' i hi).2 = (bubbleUp g i hi).2 := by
  induction i generalizing g g' with
  | zero => exact ⟨h, rfl⟩
  | succ i ih =>
    unfold bubbleUp
    dsimp only
    rw [startsWithZero_eq h (Nat.lt_of_succ_lt hi)]
    split
    . exact ⟨h, rfl⟩
    . exact ih (h.swap _ _) _

theorem inStep_place {state state' : State m (n + 1)} (h : state.grid.InStep state'.grid) (i : Fin m) :
    (place state i).grid.InStep (place state' i).grid := by
  obtain ⟨hgrid, hfinal⟩ := inStep_bubbleUp h i.isLt
  unfold place
  have hstart : startsWithZero state'.grid[i] = startsWithZero state.grid[i] := startsWithZero_eq h i.isLt
  rw [hstart]
  split
  . dsimp only
    rw [hfinal]
    split
    . exact h
    . exact hgrid
  . exact h

end RowOrder

theorem Grid.InStep.orderRows {g g' : Grid m (n + 1)} (h : g.InStep g') :
    g.orderRows.grid.InStep g'.orderRows.grid :=
  List.foldl_rel (r := fun (state state' : RowOrder.State m (n + 1)) => state.grid.InStep state'.grid) h
    fun i _ _ _ hstate => RowOrder.inStep_place hstate i

/-!
### The result
-/

namespace Solver

theorem exists_outcome_of_within {s : Solver n} (hfresh : s.consumed = false) (hthresholds : s.thresholds = .default)
    (hM : Step.IsCellBound M) (hg : s.grid.Within M) : ∃ sol, s.solve.outcome = .ok sol := by
  have hended : (reduce s.thresholds.sweep s.grid).sweep.ended = none ∨
      (reduce s.thresholds.sweep s.grid).sweep.ended = some .contradiction :=
    Sweep.ended_run fun c r hr reached => Sweep.isFinite_divisor_stepAt hM hg.orderRows c hr reached
  have hbands : s.thresholds.residual.failMinExclusive.eqv s.thresholds.residual.degradedMax = true := by
    rw [hthresholds]
    decide +kernel
  exact s.exists_outcome_of_ended hfresh hended hbands

theorem kind_eq_of_inStep {s s' : Solver n} {sol sol' : Solution n} (h : s.solve.outcome = .ok sol)
    (h' : s'.solve.outcome = .ok sol')
    (hin : (reduce s.thresholds.sweep s.grid).sweep.InStep (reduce s'.thresholds.sweep s'.grid).sweep) :
    sol'.kind = sol.kind ∧ sol'.sweep.pivotColumns = sol.sweep.pivotColumns ∧
      sol'.sweep.freeColumns = sol.sweep.freeColumns := by
  obtain ⟨hgrid, hsweep⟩ := grid_of_solve h
  obtain ⟨hgrid', hsweep'⟩ := grid_of_solve h'
  refine ⟨?_, ?_, ?_⟩
  . rw [kind_eq_of_solve h, kind_eq_of_solve h', hgrid, hgrid']
    have hconsistent := hin.grid.isConsistent_eq
    have hfull := hin.grid.hasFullPivots_eq (Nat.le_refl n)
    unfold Reduction.grid
    rw [hconsistent, hfull]
  . rw [hsweep, hsweep']
    exact hin.pivotColumns
  . rw [hsweep, hsweep']
    exact hin.freeColumns

end Solver

def Solver.EndsAlike (s s' : Solver n) : Prop :=
  ∃ sol sol', s.solve.outcome = .ok sol ∧ s'.solve.outcome = .ok sol' ∧ sol'.kind = sol.kind ∧
    sol'.sweep.pivotColumns = sol.sweep.pivotColumns ∧ sol'.sweep.freeColumns = sol.sweep.freeColumns

theorem Thresholds.isOrdinary_default : Thresholds.default.sweep.IsOrdinary :=
  ⟨rfl, ⟨by decide +kernel, by decide +kernel⟩, by decide +kernel⟩

theorem Grid.IsModerate.inStep_run {g : Grid n (n + 1)} {k : Int} (h : g.IsModerate 0) (hk : g.IsModerate k)
    (hclass : g.IsFractional ∧ (g.scale k).IsFractional ∨ g.IsSmallInteger ∧ (g.scale k).IsSmallInteger ∨
      Sweep.RunsAlike Thresholds.default.sweep g.orderRows.grid (g.scale k).orderRows.grid (Nat.le_refl n)) :
    (Sweep.run Thresholds.default.sweep g.orderRows.grid (Nat.le_refl n)).InStep
      (Sweep.run Thresholds.default.sweep (g.scale k).orderRows.grid (Nat.le_refl n)) := by
  have ordinary := Thresholds.isOrdinary_default
  have hM := isCellBound_two_pow
  have hg := h.within hk
  have hg' := h.within_scale hk
  rcases hclass with ⟨hfractional, hfractional'⟩ | ⟨hsmall, hsmall'⟩ | halike
  . have hrows : ∀ i : Fin n, Row.Scaled k g[i] (g.scale k)[i] := by
      intro i j
      rw [getElem_scale]
      exact scaled_scale ((h i j).shifted_scale (hk i j)).left
    rw [hfractional.grid_orderRows, hfractional'.grid_orderRows]
    exact hfractional.inStep_run hfractional' hrows ordinary hM hg hg'
  . have hexact : Sweep.IsExact Thresholds.default.sweep g.orderRows.grid (Nat.le_refl n) :=
      hsmall.orderRows.isExact rfl
    exact hexact.inStep_run (hsmall'.orderRows.isExact rfl) (h.inStep hk).orderRows ordinary.pivoting ordinary.within hM
      hg.orderRows hg'.orderRows
  . exact Sweep.inStep_run hM hg.orderRows hg'.orderRows ordinary.pivoting ordinary.within halike
      (h.inStep hk).orderRows

theorem kind_of_scale (s s' : Solver n) (k : Int) (hfresh : s.consumed = false) (hfresh' : s'.consumed = false)
    (hthresholds : s.thresholds = .default) (hthresholds' : s'.thresholds = .default)
    (hscale : s'.grid = s.grid.scale k) (hmoderate : s.grid.IsModerate 0) (hscaled : s.grid.IsModerate k)
    (hclass : s.grid.IsFractional ∧ s'.grid.IsFractional ∨ s.grid.IsSmallInteger ∧ s'.grid.IsSmallInteger ∨
      Sweep.RunsAlike Thresholds.default.sweep s.grid.orderRows.grid s'.grid.orderRows.grid (Nat.le_refl n)) :
    s.EndsAlike s' := by
  have hM := Grid.isCellBound_two_pow
  have hg := hmoderate.within hscaled
  have hg' : s'.grid.Within (2 ^ 1974) := by
    rw [hscale]
    exact hmoderate.within_scale hscaled
  obtain ⟨sol, hsol⟩ := Solver.exists_outcome_of_within hfresh hthresholds hM hg
  obtain ⟨sol', hsol'⟩ := Solver.exists_outcome_of_within hfresh' hthresholds' hM hg'
  refine ⟨sol, sol', hsol, hsol', Solver.kind_eq_of_inStep hsol hsol' ?_⟩
  rw [hscale] at hclass
  rw [hthresholds, hthresholds', hscale]
  exact hmoderate.inStep_run hscaled hclass

def Solver.ofGrid (g : Grid n (n + 1)) (hn : 0 < n) (hg : g.isFinite = true) : Solver n :=
  .ofSystem ⟨n, g, hn, hg⟩ .default .standard Numerics.standard.estimator

def tenths : Grid 2 3 :=
  let tenth (i : Nat) : Binary64 := (Decimal.mk i (-1)).toBinary64 false
  #v[#v[tenth 1, tenth 2, tenth 3], #v[tenth 4, tenth 3, tenth 1]]

def crossing : Grid 2 3 :=
  #v[#v[.ofNat 2, .ofNat 3, .ofNat 7], #v[.ofNat 5, -.one, .ofNat 4]]

def decimals : Grid 2 3 :=
  let hundredth (i : Nat) : Binary64 := (Decimal.mk i (-2)).toBinary64 false
  #v[#v[hundredth 150, hundredth 25, .ofNat 2], #v[hundredth 330, hundredth 350, .one]]

theorem kind_of_scale_by_class :
    (tenths.IsModerate 0 ∧ tenths.IsModerate (-400) ∧ tenths.IsFractional ∧ (tenths.scale (-400)).IsFractional ∧
      (Solver.ofGrid tenths (by decide) (by decide +kernel)).EndsAlike
        (.ofGrid (tenths.scale (-400)) (by decide) (by decide +kernel))) ∧
    (crossing.IsModerate 0 ∧ crossing.IsModerate 20 ∧ crossing.IsSmallInteger ∧ (crossing.scale 20).IsSmallInteger ∧
      (Solver.ofGrid crossing (by decide) (by decide +kernel)).EndsAlike
        (.ofGrid (crossing.scale 20) (by decide) (by decide +kernel))) ∧
    (decimals.IsModerate 0 ∧ decimals.IsModerate (-500) ∧ ¬ decimals.IsFractional ∧ ¬ decimals.IsSmallInteger ∧
      (Solver.ofGrid decimals (by decide) (by decide +kernel)).EndsAlike
        (.ofGrid (decimals.scale (-500)) (by decide) (by decide +kernel))) := by
  refine ⟨?tenths, ?crossing, ?decimals⟩
  case tenths =>
    have hmoderate : tenths.IsModerate 0 ∧ tenths.IsModerate (-400) := by decide +kernel
    have hfractional : tenths.IsFractional ∧ (tenths.scale (-400)).IsFractional := by decide +kernel
    exact ⟨hmoderate.left, hmoderate.right, hfractional.left, hfractional.right,
      kind_of_scale _ _ (-400) rfl rfl rfl rfl rfl hmoderate.left hmoderate.right (Or.inl hfractional)⟩
  case crossing =>
    have hmoderate : crossing.IsModerate 0 ∧ crossing.IsModerate 20 := by decide +kernel
    have hsmall : crossing.IsSmallInteger ∧ (crossing.scale 20).IsSmallInteger := by decide +kernel
    exact ⟨hmoderate.left, hmoderate.right, hsmall.left, hsmall.right,
      kind_of_scale _ _ 20 rfl rfl rfl rfl rfl hmoderate.left hmoderate.right (Or.inr (Or.inl hsmall))⟩
  case decimals =>
    have hmoderate : decimals.IsModerate 0 ∧ decimals.IsModerate (-500) := by decide +kernel
    have halike : Sweep.RunsAlike Thresholds.default.sweep decimals.orderRows.grid
        (decimals.scale (-500)).orderRows.grid (Nat.le_refl 2) := by decide +kernel
    exact ⟨hmoderate.left, hmoderate.right, by decide +kernel, by decide +kernel,
      kind_of_scale _ _ (-500) rfl rfl rfl rfl rfl hmoderate.left hmoderate.right (Or.inr (Or.inr halike))⟩

def Grid.ChangesKind (g : Grid n (n + 1)) (k : Int) : Prop :=
  ∃ (s s' : Solver n) (sol sol' : Solution n), s.consumed = false ∧ s'.consumed = false ∧
    s.thresholds = .default ∧ s'.thresholds = .default ∧ s.grid = g ∧ s'.grid = g.scale k ∧
      s.solve.outcome = .ok sol ∧ s'.solve.outcome = .ok sol' ∧ sol'.kind ≠ sol.kind

theorem Grid.changesKind_of_kind {g : Grid n (n + 1)} {k : Int} (kind kind' : SolutionKind) (hn : 0 < n)
    (hg : g.isFinite = true) (hk : (g.scale k).isFinite = true) (hne : kind' ≠ kind)
    (hkind : (Solver.ofGrid g hn hg).solve.outcome.toOption.map (·.kind) = some kind)
    (hkind' : (Solver.ofGrid (g.scale k) hn hk).solve.outcome.toOption.map (·.kind) = some kind') :
    g.ChangesKind k := by
  have hread : ∀ {s : Solver n} {kind : SolutionKind}, s.solve.outcome.toOption.map (·.kind) = some kind →
      ∃ sol, s.solve.outcome = .ok sol ∧ sol.kind = kind := by
    intro s kind h
    cases hout : s.solve.outcome with
    | error e =>
      rw [hout] at h
      cases h
    | ok sol =>
      rw [hout] at h
      exact ⟨sol, rfl, Option.some.inj h⟩
  obtain ⟨sol, hsol, rfl⟩ := hread hkind
  obtain ⟨sol', hsol', rfl⟩ := hread hkind'
  exact ⟨_, _, sol, sol', rfl, rfl, rfl, rfl, rfl, rfl, hsol, hsol', hne⟩

def unitDeterminant : Grid 2 3 :=
  #v[#v[.ofNat 8388608, .ofNat 8388607, .one], #v[.ofNat 8388609, .ofNat 8388608, .one]]

/--
Three equations of which the first one is left alone in the first pass, so that only the others change their scale.
-/
def lateEntry : Grid 3 4 :=
  let value (digits : Nat) (exponent : Int) : Binary64 := (Decimal.mk digits exponent).toBinary64 false
  #v[#v[.zero, value 23359106102810032 (-17), value 21476332866976772 (-17), value 3 (-1)],
    #v[value 7 (-1), value 8889734947748931 (-16), value 817321116641815 (-15), value 9 (-1)],
    #v[value 7 (-1), .zero, .zero, value 1 (-1)]]

/--
Three equations of which the last two differ by `3 / 8 * (y + z) = 3 / 8`. Times eight this row has the content three.
-/
def tripleContent : Grid 3 4 :=
  let value (digits : Nat) (exponent : Int) : Binary64 := (Decimal.mk digits exponent).toBinary64 false
  #v[#v[.zero, value 26070277684444528 (-18), value 26070277684447134 (-18), value 3 (-1)],
    #v[.one, value 5 (-1), value 75 (-2), value 1375 (-3)],
    #v[.one, value 125 (-3), value 375 (-3), .one]]

/--
The equations `2 ^ -900 * x = 2 ^ -900` and `x + 2 ^ -900 * y = 0`. The coefficient of `y` is lost in the product with
the multiplier `2 ^ -900`, but not if the equations are multiplied by `2 ^ 900` first.
-/
def tinyProduct : Grid 2 3 :=
  #v[#v[.twoPow (-900), .zero, .twoPow (-900)], #v[.one, .twoPow (-900), .zero]]

theorem changesKind_of_not_alike :
    (unitDeterminant.IsModerate 0 ∧ unitDeterminant.IsModerate (-1) ∧ unitDeterminant.ChangesKind (-1)) ∧
      (lateEntry.IsModerate 0 ∧ lateEntry.IsModerate 3 ∧ lateEntry.ChangesKind 3) ∧
        (tripleContent.IsModerate 0 ∧ tripleContent.IsModerate 3 ∧ tripleContent.ChangesKind 3) ∧
          tinyProduct.IsModerate 0 ∧ tinyProduct.IsModerate 900 ∧ tinyProduct.ChangesKind 900 := by
  refine ⟨⟨by decide +kernel, by decide +kernel, ?_⟩, ⟨by decide +kernel, by decide +kernel, ?_⟩,
    ⟨by decide +kernel, by decide +kernel, ?_⟩, by decide +kernel, by decide +kernel, ?_⟩
  . exact Grid.changesKind_of_kind .unique .inconsistent (by decide) (by decide +kernel)
      (by decide +kernel) (by decide) (by decide +kernel) (by decide +kernel)
  . exact Grid.changesKind_of_kind .inconsistent .unique (by decide) (by decide +kernel)
      (by decide +kernel) (by decide) (by decide +kernel) (by decide +kernel)
  . exact Grid.changesKind_of_kind .unique .inconsistent (by decide) (by decide +kernel)
      (by decide +kernel) (by decide) (by decide +kernel) (by decide +kernel)
  . exact Grid.changesKind_of_kind .inconsistent .unique (by decide) (by decide +kernel)
      (by decide +kernel) (by decide) (by decide +kernel) (by decide +kernel)

end RowSweep
