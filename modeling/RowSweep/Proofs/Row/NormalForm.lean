import RowSweep.Proofs.Multipliers.Exact
import RowSweep.Proofs.Row.Exactness

/-!
This module contains the form that rescaling brings a row into: all zero, integers without a common divisor, or a
largest magnitude in `[1/2, 1)`. A row that has this form already is left alone.
-/

namespace RowSweep

open Binary64

attribute [local irreducible] unitsPerOne rangeEnd

namespace Binary64

theorem scale_zero {x : Binary64} (hx : x.isFinite = true) : x.scale 0 = x := by
  cases x with
  | nan => cases hx
  | infinite s => cases hx
  | finite s u hu => exact round_mul_self s hu (by decide)

theorem half_le_abs_toRat_iff {x : Binary64} : 1 / 2 ≤ |x.toRat| ↔ unitsPerOne ≤ 2 * x.magnitude := by
  rw [abs_toRat, le_div_iff₀ unitsPerOne_cast_pos, ← Nat.cast_le (α := ℚ)]
  push_cast
  constructor <;> intro h <;> linarith

theorem abs_toRat_lt_one_iff {x : Binary64} : |x.toRat| < 1 ↔ x.magnitude < unitsPerOne := by
  rw [abs_toRat, div_lt_one unitsPerOne_cast_pos, Nat.cast_lt]

end Binary64

namespace Row

inductive IsNormal (row : Row n) : Prop where
  | zero (cells : ∀ j : Fin n, row[j].isZero = true)
  | coprime (whole : row.IsWhole) (gcd_eq : (Finset.univ.gcd fun j : Fin n => row[j].toInt.natAbs) = 1)
  | scaled (finite : ∀ j : Fin n, row[j].isFinite = true) (low : ∃ j : Fin n, 1 / 2 ≤ |row[j].toRat|)
      (high : ∀ j : Fin n, |row[j].toRat| < 1)

variable {row : Row n}

/-!
### The content
-/

theorem dvd_content {xs : List Int} (h : ∀ x ∈ xs, d ∣ x.natAbs) : d ∣ content xs := by
  suffices hfold : ∀ a, d ∣ a → d ∣ xs.foldl (fun d x => Nat.gcd d x.natAbs) a from hfold 0 (Nat.dvd_zero d)
  induction xs with
  | nil => exact fun a ha => ha
  | cons x xs ih =>
    intro a ha
    rw [List.forall_mem_cons] at h
    rw [List.foldl_cons]
    apply ih h.right
    exact Nat.dvd_gcd ha h.left

theorem exists_of_mem_integers? (h : row.integers? = some xs) (hx : x ∈ xs) :
    ∃ j : Fin n, row[j].integer? = some x := by
  rw [integers?_eq_some, toList_eq_map_finRange, List.map_map] at h
  have hmem : some x ∈ xs.map some := List.mem_map_of_mem hx
  rw [← h] at hmem
  simpa using hmem

theorem content_eq_gcd (h : row.integers? = some xs) :
    content xs = Finset.univ.gcd fun j : Fin n => row[j].toInt.natAbs := by
  apply Nat.dvd_antisymm
  . apply Finset.dvd_gcd
    intro j _
    obtain ⟨i, hi, hj⟩ := exists_integer? h j
    rw [toInt_of_integer? hj]
    exact content_dvd hi
  . apply dvd_content
    intro x hx
    obtain ⟨j, hj⟩ := exists_of_mem_integers? h hx
    rw [← toInt_of_integer? hj]
    exact Finset.gcd_dvd (Finset.mem_univ j)

section rescale

variable (finite : ∀ j : Fin n, row[j].isFinite = true) (hpeak : row.peak.isZero = false)

include finite hpeak

theorem isNormal_rescale_of_integers? (hle : row.peak.magnitude ≤ 2 ^ 53 * unitsPerOne)
    (hxs : row.integers? = some xs) : row.rescale.1.IsNormal := by
  -- A common divisor of the quotients times the content divides all cells, and therefore the content.
  obtain ⟨hpos, hcontent, -⟩ := content_spec finite hpeak hle hxs
  obtain ⟨d, -, hdle, hdivisor, hcells⟩ := rescale_integers finite hle hxs
  have hd : d = content xs := by
    rw [rescale_of_integers? finite hpeak hle hxs] at hdivisor
    have hmagnitude := congrArg magnitude hdivisor
    rw [magnitude_ofNat hcontent, magnitude_ofNat hdle] at hmagnitude
    exact (Nat.eq_of_mul_eq_mul_right unitsPerOne_pos hmagnitude).symm
  apply IsNormal.coprime
  . intro j
    obtain ⟨q, hq, -, hj⟩ := hcells j
    rw [exactInteger?_eq_some.mpr ⟨hj, hq⟩]
    rfl
  . generalize hgcd : (Finset.univ.gcd fun j : Fin n => row.rescale.1[j].toInt.natAbs) = gcd
    have hdvd : gcd * content xs ∣ 1 * content xs := by
      rw [Nat.one_mul]
      apply dvd_content
      intro x hx
      obtain ⟨j, hj⟩ := exists_of_mem_integers? hxs hx
      obtain ⟨q, -, hold, hnew⟩ := hcells j
      have hx : x = q * d := Option.some.inj (hj.symm.trans hold)
      have hq : gcd ∣ q.natAbs := by
        rw [← hgcd, ← toInt_of_integer? hnew]
        exact Finset.gcd_dvd (Finset.mem_univ j)
      rw [hx, Int.natAbs_mul, Int.natAbs_natCast, hd]
      exact Nat.mul_dvd_mul_right hq _
    exact Nat.dvd_one.mp (Nat.dvd_of_mul_dvd_mul_right hpos hdvd)

theorem log2_scale_peak {k : Fin n} (hk : row.peak.magnitude = row[k].magnitude) :
    (row[k].scale (-row.peak.exponent)).magnitude ≠ 0 ∧
      (row[k].scale (-row.peak.exponent)).magnitude.log2 = 1073 := by
  -- The cell with the peak keeps all its digits and comes to lie in `[1/2, 1)`.
  have hzero : row[k].magnitude ≠ 0 := by
    rw [← hk]
    exact magnitude_ne_zero (isFinite_peak finite) hpeak
  have hshifted := (keepsCell_iff finite k).mp (keepsCell_of_peak finite hk)
  have hlog := hshifted.log2_eq hzero
  have hexponent := exponent_eq (isFinite_peak finite)
  rw [hk] at hexponent
  constructor
  . rwa [ne_eq, hshifted.magnitude_eq_zero_iff]
  . omega

theorem isNormal_scale_exponent : IsNormal (row.map (·.scale (-row.peak.exponent))) := by
  -- Rounding is monotone, so no other cell comes to lie above the one with the peak.
  have hcell : ∀ j : Fin n, (row.map (·.scale (-row.peak.exponent)))[j] = row[j].scale (-row.peak.exponent) := by
    simp [getElem_fin]
  have hscale := within_scale_peak finite
  cases exists_magnitude_eq_peak finite with
  | inl hzero => exact absurd hzero (magnitude_ne_zero (isFinite_peak finite) hpeak)
  | inr hex =>
    obtain ⟨k, hk⟩ := hex
    obtain ⟨hzero, hlog⟩ := log2_scale_peak finite hpeak hk
    obtain ⟨e, he⟩ : ∃ e, e = 1074 := ⟨_, rfl⟩
    have hlow := Nat.log2_self_le hzero
    have hhigh := Nat.lt_log2_self (n := (row[k].scale (-row.peak.exponent)).magnitude)
    have hsucc : 1073 + 1 = e := by omega
    apply IsNormal.scaled
    . intro j
      rw [hcell]
      exact (hscale j).left.isFinite
    . refine ⟨k, ?_⟩
      rw [hcell, half_le_abs_toRat_iff, unitsPerOne_eq he, ← hsucc, ← hlog, Nat.pow_succ]
      omega
    . intro j
      rw [hcell, abs_toRat_lt_one_iff, unitsPerOne_eq he, ← hsucc, ← hlog]
      apply Nat.lt_of_le_of_lt _ hhigh
      rw [(hscale j).right, (hscale k).right]
      apply roundUnits_mono (Nat.two_pow_pos _)
      exact Nat.mul_le_mul_right _ (hk ▸ magnitude_le_peak finite j)

end rescale

theorem isNormal_rescale (finite : ∀ j : Fin n, row[j].isFinite = true) : row.rescale.1.IsNormal := by
  cases hpeak : row.peak.isZero with
  | true =>
    rw [rescale_of_isZero hpeak]
    exact IsNormal.zero ((isZero_peak_iff finite).mp hpeak)
  | false =>
    cases rescale_cases finite with
    | inl h =>
      obtain ⟨hle, xs, hxs⟩ := h
      exact isNormal_rescale_of_integers? finite hpeak hle hxs
    | inr h =>
      rw [h]
      exact isNormal_scale_exponent finite hpeak

/-!
### Rows in normal form
-/

theorem rescale_of_coprime (whole : row.IsWhole)
    (gcd_eq : (Finset.univ.gcd fun j : Fin n => row[j].toInt.natAbs) = 1) : row.rescale = (row, .one) := by
  have hpeak : row.peak.isZero = false := by
    rw [← Bool.not_eq_true, isZero_peak_iff whole.isFinite]
    intro hzero
    have hgcd : (Finset.univ.gcd fun j : Fin n => row[j].toInt.natAbs) = 0 := by
      rw [Finset.gcd_eq_zero_iff]
      intro j _
      rw [toInt_of_integer? (integer?_of_isZero (hzero j))]
      rfl
    omega
  obtain ⟨xs, hxs⟩ := whole.exists_integers?
  have hcontent : content xs = 1 := (content_eq_gcd hxs).trans gcd_eq
  rw [rescale_of_integers? whole.isFinite hpeak whole.magnitude_peak_le hxs, hcontent, one_eq]
  rfl

theorem rescale_of_scaled (finite : ∀ j : Fin n, row[j].isFinite = true)
    (low : ∃ j : Fin n, 1 / 2 ≤ |row[j].toRat|) (high : ∀ j : Fin n, |row[j].toRat| < 1) :
    row.rescale = (row, .one) := by
  obtain ⟨k, hk⟩ := low
  rw [half_le_abs_toRat_iff] at hk
  have hpos := unitsPerOne_pos
  have hcell := magnitude_le_peak finite k
  have hpeak : row.peak.magnitude < unitsPerOne := by
    cases exists_magnitude_eq_peak finite with
    | inl hzero => omega
    | inr hex =>
      obtain ⟨j, hj⟩ := hex
      rw [hj, ← abs_toRat_lt_one_iff]
      exact high j
  have hpeak0 : row.peak.isZero = false := by
    rw [← Bool.not_eq_true, isZero_iff_magnitude (isFinite_peak finite)]
    omega
  have hexponent : row.peak.exponent = 0 := by
    obtain ⟨e, he⟩ : ∃ e, e = 1073 := ⟨_, rfl⟩
    have hsucc : e + 1 = 1074 := by omega
    have hone : unitsPerOne = 2 ^ e * 2 := by rw [← Nat.pow_succ, ← unitsPerOne_eq hsucc]
    have hlog : row.peak.magnitude.log2 = e := by
      rw [Nat.log2_eq_iff (by omega), Nat.pow_succ]
      omega
    rw [exponent_eq (isFinite_peak finite), hlog, he]
    rfl
  have hnone : row.integers? = none := by
    cases hxs : row.integers? with
    | none => rfl
    | some xs =>
      obtain ⟨i, -, hi⟩ := exists_integer? hxs k
      rw [magnitude_of_integer? hi] at hcell hk
      have hi0 : i.natAbs = 0 := by
        apply Nat.eq_zero_of_not_pos
        intro hipos
        have := Nat.le_mul_of_pos_left unitsPerOne hipos
        omega
      rw [hi0, Nat.zero_mul] at hk
      omega
  rw [rescale_of_not_integers? finite hpeak0 fun _ => hnone, hexponent]
  congr 1
  . apply Vector.ext
    intro j hj
    rw [Vector.getElem_map]
    exact scale_zero (finite ⟨j, hj⟩)
  . exact scale_zero isFinite_one

theorem rescale_of_isNormal (h : row.IsNormal) : row.rescale = (row, .one) := by
  cases h with
  | zero cells =>
    apply rescale_of_isZero
    rw [isZero_peak_iff fun j => isFinite_of_isZero (cells j)]
    exact cells
  | coprime whole gcd_eq => exact rescale_of_coprime whole gcd_eq
  | scaled finite low high => exact rescale_of_scaled finite low high

end Row

theorem Sheet.rowIndex_withGrid (s : Sheet) (g : Grid s.rows s.columns) (row : Int) :
    (s.withGrid g).rowIndex row = s.rowIndex row := by
  unfold rowIndex withGrid
  cases Grid.place? s.rows row <;> rfl

theorem Sheet.rescale_of_isNormal (s : Sheet) (row : Int) {i : Fin s.rows} (hindex : s.rowIndex row = .ok i)
    (hcolumns : s.columns ≠ 0) (hnormal : Row.IsNormal s.grid[i]) : s.rescale row = (s, .ok .one) := by
  have hrow := Row.rescale_of_isNormal hnormal
  have hdivisor : (Row.rescale s.grid[i]).2.isFinite = true := by
    rw [hrow]
    exact isFinite_one
  obtain ⟨g, hrescale, hself, hother⟩ := s.exists_rescale row hindex hcolumns hdivisor
  have hgrid : g = s.grid := by
    apply Vector.ext
    intro k hk
    by_cases hki : (⟨k, hk⟩ : Fin s.rows) = i
    . subst hki
      rw [hrow] at hself
      exact hself
    . exact hother _ hki
  rw [hrescale, hrow, hgrid]
  rfl

end RowSweep
