import RowSweep.Proofs.Binary64.Whole

/-!
This module contains the largest magnitude of a row and what rescaling does to the cells of a row. Rescaling
acts on every cell alike, so it is described by what happens to one cell.
-/

namespace RowSweep.Row

open Binary64

attribute [local irreducible] unitsPerOne

theorem peak_foldl (xs : List Binary64) (a : Binary64) (ha : a.isFinite = true)
    (hxs : ∀ x ∈ xs, x.isFinite = true) :
    let peak := xs.foldl (fun largest v => largest.max v.abs) a
    peak.isFinite = true ∧ a.units ≤ peak.units ∧ (∀ x ∈ xs, (x.magnitude : Int) ≤ peak.units) ∧
      (peak.units = a.units ∨ ∃ x ∈ xs, peak.units = x.magnitude) := by
  induction xs generalizing a with
  | nil => simp [ha]
  | cons x xs ih =>
    have hx : x.abs.isFinite = true := by
      rw [isFinite_abs]
      apply hxs
      simp
    have hmax : (a.max x.abs).units = Max.max a.units x.magnitude := by
      rw [max_eq_larger ha hx, units_larger ha hx, units_abs]
    have hfinite : (a.max x.abs).isFinite = true := by
      rw [max_eq_larger ha hx]
      exact isFinite_larger ha hx
    obtain ⟨hpeak, hle, hall, hex⟩ := ih (a.max x.abs) hfinite (fun y hy => hxs y (by simp [hy]))
    rw [List.foldl_cons]
    refine ⟨hpeak, by omega, ?_, ?_⟩
    . intro y hy
      cases hy with
      | head => omega
      | tail _ hy => exact hall y hy
    . cases hex with
      | inl heq =>
        by_cases hax : a.units ≤ x.magnitude
        . exact Or.inr ⟨x, by simp, by omega⟩
        . exact Or.inl (by omega)
      | inr hex =>
        obtain ⟨y, hy, heq⟩ := hex
        exact Or.inr ⟨y, by simp [hy], heq⟩

theorem peak_eq_foldl (row : Row n) :
    row.peak = row.toList.foldl (fun largest v => largest.max v.abs) .zero := by
  unfold peak
  rw [Vector.foldl_toList]

theorem forall_mem_toList {row : Row n} {P : Binary64 → Prop} :
    (∀ x ∈ row.toList, P x) ↔ ∀ j : Fin n, P row[j] := by
  constructor
  . intro h j
    apply h
    simp [getElem_fin]
  . intro h x hx
    obtain ⟨j, hj, rfl⟩ := List.mem_iff_getElem.mp hx
    simpa [getElem_fin] using h ⟨j, by simpa using hj⟩

section peak

variable {row : Row n} (finite : ∀ j : Fin n, row[j].isFinite = true)

include finite

theorem isFinite_peak : row.peak.isFinite = true := by
  rw [peak_eq_foldl]
  exact (peak_foldl _ _ isFinite_zero (forall_mem_toList.mpr finite)).left

theorem units_peak : row.peak.units = row.peak.magnitude := by
  have := (peak_foldl _ _ isFinite_zero (forall_mem_toList.mpr finite)).right.left
  rw [← peak_eq_foldl, units_zero] at this
  unfold magnitude
  omega

theorem magnitude_le_peak (j : Fin n) : row[j].magnitude ≤ row.peak.magnitude := by
  have hall := (peak_foldl _ _ isFinite_zero (forall_mem_toList.mpr finite)).right.right.left
  rw [← peak_eq_foldl, units_peak finite] at hall
  have := forall_mem_toList.mp hall j
  omega

theorem exists_magnitude_eq_peak :
    row.peak.magnitude = 0 ∨ ∃ j : Fin n, row.peak.magnitude = row[j].magnitude := by
  have hex := (peak_foldl _ _ isFinite_zero (forall_mem_toList.mpr finite)).right.right.right
  rw [← peak_eq_foldl, units_peak finite, units_zero] at hex
  cases hex with
  | inl hzero => exact Or.inl (by omega)
  | inr hex =>
    obtain ⟨x, hx, heq⟩ := hex
    obtain ⟨j, hj, rfl⟩ := List.mem_iff_getElem.mp hx
    refine Or.inr ⟨⟨j, by simpa using hj⟩, ?_⟩
    have hmag : row.peak.magnitude = row.toList[j].magnitude := by omega
    simpa [getElem_fin] using hmag

theorem peak_within (hM : ∀ j : Fin n, row[j].magnitude ≤ M) : Within M row.peak := by
  refine ⟨isFinite_peak finite, ?_⟩
  cases exists_magnitude_eq_peak finite with
  | inl hzero => omega
  | inr hex =>
    obtain ⟨j, heq⟩ := hex
    rw [heq]
    exact hM j

theorem isZero_peak_iff : row.peak.isZero = true ↔ ∀ j : Fin n, row[j].isZero = true := by
  rw [isZero_iff_magnitude (isFinite_peak finite)]
  constructor
  . intro hpeak j
    have := magnitude_le_peak finite j
    rw [isZero_iff_magnitude (finite j)]
    omega
  . intro hzero
    cases exists_magnitude_eq_peak finite with
    | inl hpeak => exact hpeak
    | inr hex =>
      obtain ⟨j, heq⟩ := hex
      rw [heq]
      exact (isZero_iff_magnitude (finite j)).mp (hzero j)

end peak

/-!
### Integer rows
-/

theorem integers?_eq_some {row : Row n} {xs : List Int} :
    row.integers? = some xs ↔ row.toList.map (·.integer?) = xs.map some := by
  unfold integers?
  generalize row.toList = cells
  induction cells generalizing xs with
  | nil => cases xs <;> simp
  | cons x cells ih =>
    rw [List.mapM_cons]
    cases xs with
    | nil => cases x.integer? <;> cases cells.mapM (·.integer?) <;> simp
    | cons i xs =>
      rw [List.map_cons, List.map_cons, List.cons.injEq, ← ih]
      cases x.integer? <;> cases cells.mapM (·.integer?) <;> simp

theorem content_foldl (xs : List Int) (a : Nat) :
    let d := xs.foldl (fun d x => Nat.gcd d x.natAbs) a
    d ∣ a ∧ ∀ x ∈ xs, d ∣ x.natAbs := by
  induction xs generalizing a with
  | nil => simp
  | cons x xs ih =>
    have := ih (Nat.gcd a x.natAbs)
    rw [List.foldl_cons]
    refine ⟨Nat.dvd_trans this.left (Nat.gcd_dvd_left _ _), ?_⟩
    intro y hy
    cases hy with
    | head => exact Nat.dvd_trans this.left (Nat.gcd_dvd_right _ _)
    | tail _ hy => exact this.right y hy

theorem content_dvd {xs : List Int} (h : x ∈ xs) : content xs ∣ x.natAbs :=
  (content_foldl xs 0).right x h

theorem exists_integer? {row : Row n} {xs : List Int} (h : row.integers? = some xs) (j : Fin n) :
    ∃ i ∈ xs, row[j].integer? = some i := by
  rw [integers?_eq_some] at h
  have hmem : row[j].integer? ∈ xs.map some := by
    rw [← h]
    apply List.mem_map_of_mem
    simp [getElem_fin]
  obtain ⟨i, hi, heq⟩ := List.mem_map.mp hmem
  exact ⟨i, hi, heq.symm⟩

theorem exists_integers?_eq_some {row : Row n} (h : ∀ j : Fin n, ∃ i, row[j].integer? = some i) :
    ∃ xs, row.integers? = some xs := by
  have hcells := (forall_mem_toList (P := fun x => ∃ i, x.integer? = some i)).mpr h
  simp only [integers?_eq_some]
  generalize row.toList = cells at hcells
  induction cells with
  | nil => exact ⟨[], rfl⟩
  | cons x cells ih =>
    obtain ⟨i, hi⟩ := hcells x (by simp)
    obtain ⟨xs, hxs⟩ := ih (fun y hy => hcells y (by simp [hy]))
    exact ⟨i :: xs, by simp [hi, hxs]⟩

/-!
### Rescaling
-/

theorem rescale_of_isZero {row : Row n} (h : row.peak.isZero = true) :
    row.rescale = (row, .one) := by
  unfold rescale
  simp [h]

section rescale

variable {row : Row n} (finite : ∀ j : Fin n, row[j].isFinite = true)

include finite

theorem within_scale_peak (j : Fin n) :
    Within unitsPerOne (row[j].scale (-row.peak.exponent)) ∧
      magnitude (row[j].scale (-row.peak.exponent)) =
        roundUnits (row[j].magnitude * 2 ^ (-row.peak.exponent).toNat) (2 ^ (- -row.peak.exponent).toNat) :=
  within_scale_exponent (finite j) (isFinite_peak finite) (magnitude_le_peak finite j)

theorem rescale_of_integers? (hpeak : row.peak.isZero = false)
    (hle : row.peak.magnitude ≤ 2 ^ 53 * unitsPerOne) (hxs : row.integers? = some xs) :
    row.rescale =
      (if content xs > 1 then row.map (· / .ofNat (content xs)) else row, .ofNat (content xs)) := by
  have hlimit : row.peak.le exactLimit = true := by
    rw [le_exactLimit_iff (isFinite_peak finite), units_peak finite]
    omega
  unfold rescale
  simp [hpeak, isFinite_peak finite, hlimit, hxs]

theorem rescale_of_not_integers? (hpeak : row.peak.isZero = false)
    (h : row.peak.magnitude ≤ 2 ^ 53 * unitsPerOne → row.integers? = none) :
    row.rescale = (row.map (·.scale (-row.peak.exponent)), .twoPow row.peak.exponent) := by
  have hnone : (if row.peak.le exactLimit then row.integers? else none) = none := by
    split
    next hle =>
      rw [le_exactLimit_iff (isFinite_peak finite), units_peak finite] at hle
      exact h (by omega)
    next => rfl
  unfold rescale
  simp [hpeak, isFinite_peak finite, hnone]

theorem content_spec (hpeak : row.peak.isZero = false)
    (hle : row.peak.magnitude ≤ 2 ^ 53 * unitsPerOne) (hxs : row.integers? = some xs) :
    0 < content xs ∧ content xs ≤ 2 ^ 53 ∧
      ∀ j : Fin n, ∃ q : Int, q.natAbs ≤ 2 ^ 53 ∧ row[j].integer? = some (q * content xs) := by
  have hbound : ∀ j : Fin n, ∀ i, row[j].integer? = some i → i.natAbs ≤ 2 ^ 53 := by
    intro j i hi
    have := magnitude_le_peak finite j
    rw [magnitude_of_integer? hi] at this
    exact Nat.le_of_mul_le_mul_right (by omega) unitsPerOne_pos
  have hcontent : 0 < content xs ∧ content xs ≤ 2 ^ 53 := by
    obtain ⟨j, hj⟩ : ∃ j : Fin n, row[j].isZero = false := by
      apply Classical.byContradiction
      intro hnone
      have hall : ∀ j : Fin n, row[j].isZero = true := by
        intro j
        cases hj : row[j].isZero with
        | true => rfl
        | false => exact absurd ⟨j, hj⟩ hnone
      rw [(isZero_peak_iff finite).mpr hall] at hpeak
      cases hpeak
    obtain ⟨i, hmem, hi⟩ := exists_integer? hxs j
    have hne : i.natAbs ≠ 0 := by
      intro hzero
      rw [(isZero_iff_of_integer? hi).mpr (by omega)] at hj
      cases hj
    have hdvd := content_dvd hmem
    have := Nat.le_of_dvd (Nat.pos_of_ne_zero hne) hdvd
    have := hbound j i hi
    exact ⟨Nat.pos_of_dvd_of_pos hdvd (Nat.pos_of_ne_zero hne), by omega⟩
  refine ⟨hcontent.left, hcontent.right, ?_⟩
  intro j
  obtain ⟨i, hmem, hi⟩ := exists_integer? hxs j
  obtain ⟨q, hq⟩ := Int.ofNat_dvd_left.mpr (content_dvd hmem)
  refine ⟨q, ?_, by rw [hi, hq, Int.mul_comm]⟩
  have := hbound j i hi
  rw [hq, Int.natAbs_mul, Int.natAbs_natCast] at this
  exact Nat.le_trans (Nat.le_mul_of_pos_left _ hcontent.left) this

-- An integer row within the exact range is divided by a common divisor of its cells without rounding.
theorem rescale_integers (hle : row.peak.magnitude ≤ 2 ^ 53 * unitsPerOne)
    (hxs : row.integers? = some xs) :
    ∃ d : Nat, 0 < d ∧ d ≤ 2 ^ 53 ∧ row.rescale.2 = .ofNat d ∧
      ∀ j : Fin n, ∃ q : Int, q.natAbs ≤ 2 ^ 53 ∧ row[j].integer? = some (q * d) ∧
        row.rescale.1[j].integer? = some q := by
  cases hpeak : row.peak.isZero with
  | true =>
    rw [rescale_of_isZero hpeak]
    refine ⟨1, by decide, by decide, one_eq, ?_⟩
    intro j
    have := integer?_of_isZero ((isZero_peak_iff finite).mp hpeak j)
    exact ⟨0, by decide, this, this⟩
  | false =>
    obtain ⟨hpos, hcontent, hcells⟩ := content_spec finite hpeak hle hxs
    rw [rescale_of_integers? finite hpeak hle hxs]
    refine ⟨content xs, hpos, hcontent, rfl, ?_⟩
    intro j
    obtain ⟨q, hq, hj⟩ := hcells j
    refine ⟨q, hq, hj, ?_⟩
    dsimp only
    split
    next =>
      simp only [getElem_fin, Vector.getElem_map]
      exact integer?_div hj (integer?_ofNat hcontent) (by omega) hq
    next hone =>
      have hd : content xs = 1 := by omega
      rw [hd, Int.natCast_one, Int.mul_one] at hj
      exact hj

theorem rescale_cases :
    (row.peak.magnitude ≤ 2 ^ 53 * unitsPerOne ∧ ∃ xs, row.integers? = some xs) ∨
      row.rescale = (row.map (·.scale (-row.peak.exponent)), .twoPow row.peak.exponent) := by
  by_cases h : row.peak.magnitude ≤ 2 ^ 53 * unitsPerOne ∧ ∃ xs, row.integers? = some xs
  . exact Or.inl h
  . cases hpeak : row.peak.isZero with
    | true =>
      refine absurd ⟨?_, exists_integers?_eq_some ?_⟩ h
      . rw [(isZero_iff_magnitude (isFinite_peak finite)).mp hpeak]
        exact Nat.zero_le _
      . intro j
        exact ⟨0, integer?_of_isZero ((isZero_peak_iff finite).mp hpeak j)⟩
    | false =>
      refine Or.inr (rescale_of_not_integers? finite hpeak ?_)
      intro hle
      cases hxs : row.integers? with
      | none => rfl
      | some xs => exact absurd ⟨hle, xs, hxs⟩ h

theorem within_rescale (hlarge : 2 ^ 53 * unitsPerOne ≤ M) (j : Fin n) :
    Within M row.rescale.1[j] := by
  cases rescale_cases finite with
  | inl h =>
    obtain ⟨hle, xs, hxs⟩ := h
    obtain ⟨d, -, -, -, hcells⟩ := rescale_integers finite hle hxs
    obtain ⟨q, hq, -, hj⟩ := hcells j
    refine ⟨isFinite_of_integer? hj, ?_⟩
    rw [magnitude_of_integer? hj]
    exact Nat.le_trans (Nat.mul_le_mul_right _ hq) hlarge
  | inr h =>
    have hcell := within_scale_peak finite j
    have hpos := unitsPerOne_pos
    rw [h]
    simp only [getElem_fin, Vector.getElem_map]
    apply hcell.left.mono
    omega

theorem isZero_rescale_iff (j : Fin n) :
    row.rescale.1[j].isZero = true ↔
      row[j].isZero = true ∨ (row[j].scale (-row.peak.exponent)).isZero = true := by
  cases rescale_cases finite with
  | inl h =>
    obtain ⟨hle, xs, hxs⟩ := h
    obtain ⟨d, hd, -, -, hcells⟩ := rescale_integers finite hle hxs
    obtain ⟨q, hq, hrow, hj⟩ := hcells j
    rw [isZero_iff_of_integer? hj, isZero_iff_of_integer? hrow, Int.mul_eq_zero]
    by_cases hzero : q = 0
    . simp [hzero]
    . have hlow : unitsPerOne ≤ row[j].magnitude := by
        rw [magnitude_of_integer? hrow]
        apply Nat.le_mul_of_pos_left
        rw [Int.natAbs_mul, Int.natAbs_natCast]
        exact Nat.mul_pos (by omega) hd
      have := isZero_scale_exponent (finite j) (isFinite_peak finite) (magnitude_le_peak finite j)
        hlow hle
      simp only [hzero, this, Bool.false_eq_true, false_iff, or_false, false_or]
      omega
  | inr h =>
    rw [h]
    simp only [getElem_fin, Vector.getElem_map]
    constructor
    . intro hscale
      exact Or.inr hscale
    . intro hor
      cases hor with
      | inl hzero => exact isZero_scale hzero
      | inr hscale => exact hscale

-- Below `2 ^ 1023` the power of two above the peak is a value itself.
theorem isFinite_divisor (he : e ≤ 2097) (hrow : ∀ j : Fin n, row[j].magnitude < 2 ^ e) :
    row.rescale.2.isFinite = true := by
  cases rescale_cases finite with
  | inl h =>
    obtain ⟨hle, xs, hxs⟩ := h
    obtain ⟨d, -, hd, hdivisor, -⟩ := rescale_integers finite hle hxs
    rw [hdivisor]
    exact (ofNat_spec hd).left
  | inr h =>
    have hlog : row.peak.magnitude.log2 < 2097 := by
      cases exists_magnitude_eq_peak finite with
      | inl hzero =>
        rw [hzero]
        decide
      | inr hex =>
        obtain ⟨j, heq⟩ := hex
        have hlt := hrow j
        rw [← heq] at hlt
        by_cases hzero : row.peak.magnitude = 0
        . rw [hzero]
          decide
        . have := (Nat.log2_lt hzero).mpr hlt
          omega
    rw [h]
    apply (twoPow_spec _ _).left
    . rw [exponent_eq (isFinite_peak finite)]
      omega
    . rw [exponent_eq (isFinite_peak finite)]
      omega

end rescale

end RowSweep.Row
