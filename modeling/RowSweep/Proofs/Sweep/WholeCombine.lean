import RowSweep.Proofs.Multipliers.Guard
import RowSweep.Proofs.Sweep.Clearing

/-!
This module contains the steps of a sweep that combine two integer rows with whole multipliers. Each cell is the one
that the integers give, unless that one is next to the exact range: the guard of the multipliers lets it pass.
-/

namespace RowSweep

open Binary64

namespace Step

def wholeCell (step : Step m n) (upper lower : Row n) (j : Fin n) : Int :=
  step.targetMultiplier.toInt * upper[j].toInt + step.sign.toInt * step.copyMultiplier.toInt * lower[j].toInt

structure IsWhole (settings : SweepSettings) (g : Grid m (n + 1)) (c : Fin n) (r : Nat) (hr : r < m) (h : r + 1 < m) :
    Prop where
  upper : g[r][c.castSucc].isZero = false
  lower : g[r + 1][c.castSucc].isZero = false
  whole : (multipliers settings g r h g[r][c.castSucc] g[r + 1][c.castSucc]).integral = true
  upperRow : Row.IsInteger g[r]
  lowerRow : Row.IsInteger g[r + 1]

structure ReportsWhole (step : Step m n) (row upper lower : Row n) : Prop where
  combined : step.action = .combine
  target : step.targetMultiplier.integer?.isSome = true
  copy : step.copyMultiplier.integer?.isSome = true
  divisor : step.divisor.integer?.isSome = true
  divisor_pos : 0 < step.divisor.toInt
  integer : row.IsInteger
  natAbs_le : ∀ j : Fin n, (step.wholeCell upper lower j).natAbs ≤ 2 ^ 53 + 1
  exact_iff : ∀ j : Fin n, row[j].toInt * step.divisor.toInt = step.wholeCell upper lower j ↔
    (step.wholeCell upper lower j).natAbs ≠ 2 ^ 53 + 1

variable {settings : SweepSettings} {g : Grid m (n + 1)} {c : Fin n} {r : Nat} {hr : r < m} {h : r + 1 < m}

theorem IsWhole.reports (hpair : IsWhole settings g c r hr h) :
    (ofPair settings g c r h).ReportsWhole (ofPair settings g c r h).grid[r] g[r] g[r + 1] := by
  have hstep := ofPair_of_whole hpair.upper hpair.lower hpair.whole
  have hentries := integral?_of_whole hpair.whole
  have hpairing := multipliers_pairing settings g c hr h
  rw [hstep]
  generalize multipliers settings g r h g[r][c.castSucc] g[r + 1][c.castSucc] = k at *
  have hintegral := integral_of_integral? hentries
  have hexact : k.staysExact g[r] g[r + 1] = true := by
    cases hpairing with
    | scaled => cases hintegral
    | whole ratio entries exact => exact exact
  obtain ⟨t, w, hguarded⟩ := Multipliers.exists_isGuarded hentries hpair.upper hpair.lower hpair.upperRow hpair.lowerRow
    hexact
  obtain ⟨d, hpos, hdivisor, hrow, hcells⟩ := hguarded.rescale_combine hpair.upperRow hpair.lowerRow
  have hcell : ∀ j : Fin (n + 1), (combined settings g c r h .combine k).wholeCell g[r] g[r + 1] j =
      g[r][j].toInt * t + g[r + 1][j].toInt * (k.sign.toInt * w) := by
    intro j
    show k.target.toInt * g[r][j].toInt + k.sign.toInt * k.copy.toInt * g[r + 1][j].toInt = _
    rw [toInt_of_integer? hguarded.target, toInt_of_integer? hguarded.copy, Int.mul_comm, Int.mul_comm (_ * _)]
  have hreported : (combined settings g c r h .combine k).divisor.integer? = some (d : Int) := by
    rw [combined_divisor hr, if_pos hintegral]
    exact hdivisor
  constructor
  case combined => rfl
  case target => exact Option.isSome_of_mem hguarded.target
  case copy => exact Option.isSome_of_mem hguarded.copy
  case divisor => exact Option.isSome_of_mem hreported
  case divisor_pos =>
    rw [toInt_of_integer? hreported]
    omega
  case integer =>
    rw [combined_getElem_self, if_pos hintegral]
    exact hrow
  case natAbs_le =>
    intro j
    rw [hcell]
    exact (hcells j).left
  case exact_iff =>
    intro j
    rw [hcell, toInt_of_integer? hreported, combined_getElem_self, if_pos hintegral]
    exact (hcells j).right

end Step

open Sweep in
theorem wholeCells_of_sweep (settings : SweepSettings) (g : Grid m (n + 1)) (h : n ≤ m) (c : Fin n) (r : Nat)
    (hr : r < m) (hr1 : r + 1 < m) (reached : Reaches settings g h c r hr1)
    (hpair : Step.IsWhole settings (before settings g h c r hr).grid c r hr hr1) :
    let pair := (before settings g h c r hr).grid
    let step := stepAt settings g h c r hr1
    step ∈ (run settings g h).trace ∧ step.ReportsWhole step.grid[r] pair[r] pair[r + 1] := by
  intro pair step
  have hreports : step.ReportsWhole step.grid[r] pair[r] pair[r + 1] := hpair.reports
  refine ⟨stepAt_mem_trace hr1 reached ?_, hreports⟩
  exact isFinite_of_integer? (integer?_toInt hreports.divisor)

open Sweep

def wholeSettings : SweepSettings :=
  ⟨.zero, true, true⟩

def largestConstant : Grid 2 3 :=
  #v[#v[.one, .zero, .exactLimit], .replicate 3 .one]

theorem wholeCells_of_largestConstant :
    Reaches wholeSettings largestConstant (Nat.le_refl 2) 0 0 (by decide) ∧
      (let step := stepAt wholeSettings largestConstant (Nat.le_refl 2) 0 0 (by decide)
       step ∈ (run wholeSettings largestConstant (Nat.le_refl 2)).trace ∧
        step.grid[0][2].toInt * step.divisor.toInt = 2 ^ 53 - 1) := by
  -- The guard is at its limit here, but no cell is.
  have reached : Reaches wholeSettings largestConstant (Nat.le_refl 2) 0 0 (by decide) :=
    ⟨by decide +kernel, by decide +kernel⟩
  have hpair : Step.IsWhole wholeSettings largestConstant 0 0 (by decide) (by decide) :=
    ⟨by decide +kernel, by decide +kernel, by decide +kernel, by decide +kernel, by decide +kernel⟩
  have hcell : (stepAt wholeSettings largestConstant (Nat.le_refl 2) 0 0 (by decide)).wholeCell largestConstant[0]
      largestConstant[1] 2 = 2 ^ 53 - 1 := by
    decide +kernel
  have hne : ((stepAt wholeSettings largestConstant (Nat.le_refl 2) 0 0 (by decide)).wholeCell largestConstant[0]
      largestConstant[1] 2).natAbs ≠ 2 ^ 53 + 1 := by
    rw [hcell]
    decide
  obtain ⟨hmem, hreports⟩ := wholeCells_of_sweep wholeSettings largestConstant (Nat.le_refl 2) 0 0 (by decide)
    (by decide) reached hpair
  exact ⟨reached, hmem, ((hreports.exact_iff 2).mpr hne).trans hcell⟩

def oddConstant : Grid 2 3 :=
  #v[#v[.one, .zero, .exactLimit], #v[.one, .one, -.one]]

theorem not_wholeCells :
    Reaches wholeSettings oddConstant (Nat.le_refl 2) 0 0 (by decide) ∧
      Step.IsWhole wholeSettings oddConstant 0 0 (by decide) (by decide) ∧
      (let step := stepAt wholeSettings oddConstant (Nat.le_refl 2) 0 0 (by decide)
       step.wholeCell oddConstant[0] oddConstant[1] 2 = 2 ^ 53 + 1 ∧ step.divisor.toInt = 1 ∧
        step.grid[0][2].toInt = 2 ^ 53) := by
  -- The rows are combined with whole multipliers, and the constant should be `2 ^ 53 + 1`.
  refine ⟨⟨by decide +kernel, by decide +kernel⟩, ?_, by decide +kernel⟩
  exact ⟨by decide +kernel, by decide +kernel, by decide +kernel, by decide +kernel, by decide +kernel⟩

end RowSweep
