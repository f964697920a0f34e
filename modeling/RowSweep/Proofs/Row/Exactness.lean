import RowSweep.Proofs.Binary64.Scale
import RowSweep.Proofs.Row.Division
import RowSweep.Proofs.Row.Shift
import RowSweep.Sheet

/-!
This module contains what rescaling a row does to the numbers in it. Dividing by the content is exact. Bringing the
peak below one is exact for a cell if none of its digits falls below the smallest unit, and a cell that is left with
half a unit or less is lost altogether.
-/

namespace RowSweep

open Binary64

attribute [local irreducible] unitsPerOne rangeEnd

/-!
### Rows
-/

namespace Row

def IsBelowTop (row : Row n) : Prop :=
  ∀ j : Fin n, row[j].abs.lt (.twoPow 1023) = true

instance (row : Row n) : Decidable row.IsBelowTop :=
  inferInstanceAs (Decidable (∀ j : Fin n, row[j].abs.lt (.twoPow 1023) = true))

def IsWhole (row : Row n) : Prop :=
  ∀ j : Fin n, row[j].exactInteger?.isSome = true

/--
No digit of the cell is lost when the peak of the row is brought below one: the cell is a whole number of those units
that become the smallest one.
-/
def KeepsCell (row : Row n) (j : Fin n) : Prop :=
  2 ^ row.peak.exponent.toNat ∣ row[j].magnitude

instance (row : Row n) (j : Fin n) : Decidable (row.KeepsCell j) :=
  inferInstanceAs (Decidable (_ ∣ _))

def LosesCell (row : Row n) (j : Fin n) : Prop :=
  2 * row[j].magnitude ≤ 2 ^ row.peak.exponent.toNat

instance (row : Row n) (j : Fin n) : Decidable (row.LosesCell j) :=
  inferInstanceAs (Decidable (_ ≤ _))

variable {row : Row n}

theorem IsBelowTop.isFinite (h : row.IsBelowTop) (j : Fin n) : row[j].isFinite = true :=
  (magnitude_lt_of_lt_twoPow (by decide) (by decide) (h j)).left

theorem IsBelowTop.isFinite_divisor (h : row.IsBelowTop) : row.rescale.2.isFinite = true := by
  apply Row.isFinite_divisor h.isFinite (e := ((1023 : Int) + 1074).toNat) (by decide)
  intro j
  exact (magnitude_lt_of_lt_twoPow (by decide) (by decide) (h j)).right

namespace IsWhole

variable (h : row.IsWhole)

include h

theorem exists_integer? (j : Fin n) : ∃ i, row[j].integer? = some i ∧ i.natAbs ≤ 2 ^ 53 := by
  obtain ⟨i, hi⟩ := Option.isSome_iff_exists.mp (h j)
  exact ⟨i, exactInteger?_eq_some.mp hi⟩

theorem isFinite (j : Fin n) : row[j].isFinite = true := by
  obtain ⟨i, hi, -⟩ := h.exists_integer? j
  exact isFinite_of_integer? hi

theorem magnitude_peak_le : row.peak.magnitude ≤ 2 ^ 53 * unitsPerOne := by
  apply (peak_within h.isFinite _).magnitude_le
  intro j
  obtain ⟨i, hi, hbound⟩ := h.exists_integer? j
  rw [magnitude_of_integer? hi]
  exact Nat.mul_le_mul_right _ hbound

theorem exists_integers? : ∃ xs, row.integers? = some xs :=
  exists_integers?_eq_some fun j => (h.exists_integer? j).imp fun _ hi => hi.left

end IsWhole

section rescale

variable (finite : ∀ j : Fin n, row[j].isFinite = true)

include finite

theorem keepsCell_iff (j : Fin n) :
    row.KeepsCell j ↔ Binary64.Shifted (-row.peak.exponent) row[j] (row[j].scale (-row.peak.exponent)) := by
  have hscale := (within_scale_peak finite j).left.isFinite
  rw [shifted_scale_iff (finite j) hscale, Int.neg_neg]
  rfl

theorem keepsCell_of_peak {j : Fin n} (h : row.peak.magnitude = row[j].magnitude) : row.KeepsCell j := by
  apply Nat.dvd_trans _ (spareBits_dvd_magnitude row[j])
  apply Nat.pow_dvd_pow
  unfold spareBits
  rw [exponent_eq (isFinite_peak finite), h]
  omega

theorem keepsCell_of_lt_one (h : row.peak.lt .one = true) (j : Fin n) : row.KeepsCell j := by
  rw [lt_iff (isFinite_peak finite) isFinite_one, units_peak finite, units_one, Int.ofNat_lt] at h
  obtain ⟨e, he⟩ : ∃ e, e = 1074 := ⟨_, rfl⟩
  rw [unitsPerOne_eq he] at h
  have hlog : row.peak.magnitude.log2 < e := by
    by_cases hzero : row.peak.magnitude = 0
    . simp [hzero, he]
    . exact (Nat.log2_lt hzero).mpr h
  have hexponent := exponent_eq (isFinite_peak finite)
  have hone : row.peak.exponent.toNat = 0 := by omega
  unfold KeepsCell
  rw [hone, Nat.pow_zero]
  apply Nat.one_dvd

theorem keepsCell_of_integers? (hle : row.peak.magnitude ≤ 2 ^ 53 * unitsPerOne) (hxs : row.integers? = some xs)
    (j : Fin n) : row.KeepsCell j := by
  obtain ⟨-, -, -, -, -, hshifted⟩ := exists_shifted_of_whole finite hle hxs
  have hcell := hshifted j
  rw [getElem_fin, getElem_fin, Vector.getElem_map] at hcell
  rw [keepsCell_iff finite]
  exact hcell

theorem toRat_rescale_iff (hdivisor : row.rescale.2.isFinite = true) (j : Fin n) :
    row[j].toRat = row.rescale.2.toRat * row.rescale.1[j].toRat ↔ row.KeepsCell j := by
  cases rescale_cases finite with
  | inl h =>
    obtain ⟨hle, xs, hxs⟩ := h
    obtain ⟨d, -, hdle, hd, hcells⟩ := rescale_integers finite hle hxs
    obtain ⟨q, -, hold, hnew⟩ := hcells j
    refine iff_of_true ?_ (keepsCell_of_integers? finite hle hxs j)
    rw [hd, toRat_of_integer? hold, toRat_of_integer? hnew, toRat_of_integer? (integer?_ofNat hdle)]
    push_cast
    ring
  | inr h =>
    have hlow := exponent_eq (isFinite_peak finite)
    have hscale := (within_scale_peak finite j).left.isFinite
    have hnew : row.rescale.1[j] = row[j].scale (-row.peak.exponent) := by
      rw [h]
      simp [getElem_fin]
    have hd : row.rescale.2 = .twoPow row.peak.exponent := by rw [h]
    rw [hd] at hdivisor
    have hrange := (log2_lt_iff _).mpr (magnitude_lt_rangeEnd row.peak)
    have hhigh := lt_of_isFinite_twoPow (by omega) hdivisor
    rw [hnew, hd, toRat_twoPow (by omega) hhigh, toRat_eq_mul_iff (finite j) hscale, keepsCell_iff finite]

theorem isZero_rescale_iff_losesCell (j : Fin n) : row.rescale.1[j].isZero = true ↔ row.LosesCell j := by
  obtain ⟨hwithin, hmagnitude⟩ := within_scale_peak finite j
  have hor : row[j].isZero = true ∨ (row[j].scale (-row.peak.exponent)).isZero = true ↔
      (row[j].scale (-row.peak.exponent)).isZero = true :=
    or_iff_right_of_imp isZero_scale
  unfold LosesCell
  rw [isZero_rescale_iff finite, hor, isZero_iff_magnitude hwithin.isFinite, hmagnitude,
    roundUnits_eq_zero_iff (Nat.two_pow_pos _), Int.neg_neg]
  cases Int.le_total 0 row.peak.exponent with
  | inl hk =>
    have hzero : (-row.peak.exponent).toNat = 0 := by omega
    rw [hzero, Nat.pow_zero, Nat.mul_one]
  | inr hk =>
    have hzero : row.peak.exponent.toNat = 0 := by omega
    have hpos := Nat.two_pow_pos (-row.peak.exponent).toNat
    rw [hzero, Nat.pow_zero]
    constructor
    . intro hle
      have := Nat.le_mul_of_pos_right row[j].magnitude hpos
      omega
    . intro hle
      have hcell : row[j].magnitude = 0 := by omega
      rw [hcell, Nat.zero_mul, Nat.mul_zero]
      apply Nat.zero_le

theorem ratios_rescale_iff (hdivisor : row.rescale.2.isFinite = true) :
    (∀ j k : Fin n, row[j].toRat * row.rescale.1[k].toRat = row[k].toRat * row.rescale.1[j].toRat) ↔
      ∀ j, row.KeepsCell j := by
  -- The cell with the peak never loses a digit, so a ratio changes as soon as some other cell does.
  have hexact := toRat_rescale_iff finite hdivisor
  constructor
  . intro hratios j
    by_cases hzero : row.peak.magnitude = 0
    . have hcell : row[j].magnitude = 0 := Nat.le_zero.mp (hzero ▸ magnitude_le_peak finite j)
      unfold KeepsCell
      rw [hcell]
      apply Nat.dvd_zero
    . cases exists_magnitude_eq_peak finite with
      | inl hnone => exact absurd hnone hzero
      | inr hex =>
        cases hex with
        | intro k hpeak =>
          have hk := (hexact k).mpr (keepsCell_of_peak finite hpeak)
          have hold : row[k].toRat ≠ 0 := by
            rw [ne_eq, toRat_eq_zero (finite k), isZero_iff_magnitude (finite k), ← hpeak]
            exact hzero
          rw [hk] at hold
          rw [← hexact]
          apply mul_right_cancel₀ (right_ne_zero_of_mul hold)
          rw [hratios, hk]
          ring
  . intro hkeeps j k
    rw [(hexact j).mpr (hkeeps j), (hexact k).mpr (hkeeps k)]
    ring

end rescale

end Row

/-!
### Sheets
-/

theorem Sheet.exists_rescale (s : Sheet) (row : Int) {i : Fin s.rows} (hindex : s.rowIndex row = .ok i)
    (hcolumns : s.columns ≠ 0) (hdivisor : (Row.rescale s.grid[i]).2.isFinite = true) :
    ∃ g : Grid s.rows s.columns, s.rescale row = (s.withGrid g, .ok (Row.rescale s.grid[i]).2) ∧
      g[i] = (Row.rescale s.grid[i]).1 ∧ ∀ k, k ≠ i → g[k] = s.grid[k] := by
  refine ⟨s.grid.set i (Row.rescale s.grid[i]).1, ?_, ?_, ?_⟩
  . unfold rescale
    rw [hindex]
    dsimp only
    rw [if_neg hcolumns, if_pos hdivisor]
  . simp [getElem_fin]
  . intro k hk
    apply Vector.getElem_set_ne
    intro heq
    exact hk (Fin.ext heq.symm)

theorem exact_of_rescale (s : Sheet) (row : Int) (i : Fin s.rows) (hindex : s.rowIndex row = .ok i)
    (hcolumns : s.columns ≠ 0) (hbelow : Row.IsBelowTop s.grid[i]) :
    ∃ (g : Grid s.rows s.columns) (d : Binary64), s.rescale row = (s.withGrid g, .ok d) ∧
      (∀ k, k ≠ i → g[k] = s.grid[k]) ∧
      (∀ j : Fin s.columns, s.grid[i][j].toRat = d.toRat * g[i][j].toRat ↔ Row.KeepsCell s.grid[i] j) ∧
      (∀ j : Fin s.columns, g[i][j].isZero = true ↔ Row.LosesCell s.grid[i] j) ∧
      ((∀ j k : Fin s.columns, s.grid[i][j].toRat * g[i][k].toRat = s.grid[i][k].toRat * g[i][j].toRat) ↔
        ∀ j, Row.KeepsCell s.grid[i] j) ∧
      (Row.IsWhole s.grid[i] ∨ (Row.peak s.grid[i]).lt .one = true → ∀ j, Row.KeepsCell s.grid[i] j) := by
  have hdivisor := hbelow.isFinite_divisor
  obtain ⟨g, hrescale, hself, hother⟩ := s.exists_rescale row hindex hcolumns hdivisor
  refine ⟨g, _, hrescale, hother, ?_, ?_, ?_, ?_⟩
  . rw [hself]
    exact Row.toRat_rescale_iff hbelow.isFinite hdivisor
  . rw [hself]
    exact Row.isZero_rescale_iff_losesCell hbelow.isFinite
  . rw [hself]
    exact Row.ratios_rescale_iff hbelow.isFinite hdivisor
  . intro hor
    cases hor with
    | inl hwhole =>
      obtain ⟨xs, hxs⟩ := hwhole.exists_integers?
      exact Row.keepsCell_of_integers? hbelow.isFinite hwhole.magnitude_peak_le hxs
    | inr hlt => exact Row.keepsCell_of_lt_one hbelow.isFinite hlt

def smallestUnits : Grid 1 3 :=
  #v[#v[.finite false (3 * 2 ^ 1073) (by decide +kernel), .finite false 2 (by decide), .finite false 1 (by decide)]]

theorem exact_of_rescale_smallestUnits :
    Row.IsBelowTop smallestUnits[(0 : Fin 1)] ∧
    ∃ (g : Grid 1 3) (d : Binary64), Sheet.rescale ⟨1, 3, smallestUnits⟩ 0 = (⟨1, 3, g⟩, .ok d) ∧
      ∀ j : Fin 3,
        (smallestUnits[(0 : Fin 1)][j].toRat = d.toRat * g[(0 : Fin 1)][j].toRat ↔ j ≠ 2) ∧
        (g[(0 : Fin 1)][j].isZero = true ↔ j = 2) := by
  -- The divisor is two. Two units can be halved, one unit cannot.
  have hbelow : Row.IsBelowTop smallestUnits[(0 : Fin 1)] := by decide +kernel
  have hkeeps : ∀ j, Row.KeepsCell smallestUnits[(0 : Fin 1)] j ↔ j ≠ 2 := by decide +kernel
  have hloses : ∀ j, Row.LosesCell smallestUnits[(0 : Fin 1)] j ↔ j = 2 := by decide +kernel
  obtain ⟨g, d, hrescale, -, hexact, hzero, -⟩ :=
    exact_of_rescale ⟨1, 3, smallestUnits⟩ 0 (0 : Fin 1) rfl (by decide) hbelow
  exact ⟨hbelow, g, d, hrescale, fun j => ⟨(hexact j).trans (hkeeps j), (hzero j).trans (hloses j)⟩⟩

theorem not_exact_of_rescale :
    Row.IsBelowTop smallestUnits[(0 : Fin 1)] ∧
    ∃ (g : Grid 1 3) (d : Binary64), Sheet.rescale ⟨1, 3, smallestUnits⟩ 0 = (⟨1, 3, g⟩, .ok d) ∧
      smallestUnits[(0 : Fin 1)][(2 : Fin 3)].isZero = false ∧ g[(0 : Fin 1)][(2 : Fin 3)].isZero = true ∧
      smallestUnits[(0 : Fin 1)][(2 : Fin 3)].toRat ≠ d.toRat * g[(0 : Fin 1)][(2 : Fin 3)].toRat ∧
      smallestUnits[(0 : Fin 1)][(1 : Fin 3)].toRat * g[(0 : Fin 1)][(2 : Fin 3)].toRat ≠
        smallestUnits[(0 : Fin 1)][(2 : Fin 3)].toRat * g[(0 : Fin 1)][(1 : Fin 3)].toRat := by
  -- A cell that is not zero becomes zero, so it is no longer the divisor times the new cell, and its ratio to
  -- another cell is lost.
  have hbelow : Row.IsBelowTop smallestUnits[(0 : Fin 1)] := by decide +kernel
  have hrow : (Row.rescale smallestUnits[(0 : Fin 1)]).1 =
      #v[.finite false (3 * 2 ^ 1072) (by decide +kernel), .finite false 1 (by decide), .zero] := by
    decide +kernel
  have hunit : toRat (.finite false 1 (by decide)) ≠ 0 := by
    rw [ne_eq, toRat_eq_zero rfl]
    decide
  have hzero : toRat .zero = 0 := (toRat_eq_zero rfl).mpr rfl
  obtain ⟨g, hrescale, hself, -⟩ :=
    Sheet.exists_rescale ⟨1, 3, smallestUnits⟩ 0 (i := (0 : Fin 1)) rfl (by decide) hbelow.isFinite_divisor
  have hcells := hself.trans hrow
  refine ⟨hbelow, g, _, hrescale, rfl, ?_⟩
  rw [hcells]
  refine ⟨rfl, ?_, ?_⟩
  . show toRat (.finite false 1 _) ≠ _ * toRat .zero
    rw [hzero, mul_zero]
    exact hunit
  . show toRat (.finite false 2 _) * toRat .zero ≠ toRat (.finite false 1 _) * toRat (.finite false 1 _)
    rw [hzero, mul_zero]
    exact (mul_ne_zero hunit hunit).symm

end RowSweep
