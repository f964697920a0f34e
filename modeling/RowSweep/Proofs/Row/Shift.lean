import RowSweep.Proofs.Binary64.Negative
import RowSweep.Proofs.Grid.Reduced
import RowSweep.Proofs.Row.Rescale

/-!
This module contains rows that are a power of two apart. They stay so when they are rescaled by divisors that are a
power of two apart themselves.
-/

namespace RowSweep.Row

open Binary64

attribute [local irreducible] unitsPerOne rangeEnd

def Shifted (e : Int) (row row' : Row n) : Prop :=
  ∀ j : Fin n, Binary64.Shifted e row[j] row'[j]

def Scaled (e : Int) (row row' : Row n) : Prop :=
  ∀ j : Fin n, Binary64.Scaled e row[j] row'[j]

theorem Scaled.shifted {row row' : Row n} (h : row.Scaled e row') : row.Shifted e row' :=
  fun j => (h j).shifted

theorem Scaled.eq {row row' : Row n} (h : row.Scaled 0 row') : row' = row := by
  ext i hi
  exact (h ⟨i, hi⟩).eq

namespace Shifted

variable {e f : Int} {row row' : Row n} (h : row.Shifted e row')

include h

theorem left (j : Fin n) : row[j].isFinite = true :=
  (h j).left

theorem right (j : Fin n) : row'[j].isFinite = true :=
  (h j).right

theorem symm : row'.Shifted (-e) row :=
  fun j => (h j).symm

theorem trans {row'' : Row n} (h' : row'.Shifted f row'') : row.Shifted (e + f) row'' :=
  fun j => (h j).trans (h' j)

theorem peak : Binary64.Shifted e row.peak row'.peak := by
  rw [peak_eq_foldl, peak_eq_foldl, toList_eq_map_finRange, toList_eq_map_finRange, List.foldl_map, List.foldl_map]
  exact List.foldl_rel ⟨rfl, rfl, by simp⟩ fun j _ _ _ hlargest => hlargest.max (h j).abs

end Shifted

theorem Shifted.isContradictory_eq {row row' : Row (n + 1)} (h : row.Shifted e row') :
    row'.isContradictory = row.isContradictory := by
  have hblank : row'.isBlank = row.isBlank := by
    rw [Bool.eq_iff_iff, Grid.isBlank_iff, Grid.isBlank_iff]
    exact forall_congr' fun j => by rw [(h j.castSucc).isZero_eq]
  have hconstant : row'.constant.isZero = row.constant.isZero := (h (Fin.last n)).isZero_eq
  unfold isContradictory
  rw [hblank, hconstant]

theorem Shifted.scale_exponent {row row' : Row n} (h : row.Shifted e row') (hpeak : row.peak.isZero = false) :
    Shifted 0 (row.map (·.scale (-row.peak.exponent))) (row'.map (·.scale (-row'.peak.exponent))) := by
  intro j
  simp only [getElem_fin, Vector.getElem_map]
  have hscale := (within_scale_peak h.left j).left.isFinite
  have hscale' := (within_scale_peak h.right j).left.isFinite
  refine ⟨hscale, hscale', ?_⟩
  have hpeak0 := magnitude_ne_zero (isFinite_peak h.left) hpeak
  have hexponent : row'.peak.exponent = row.peak.exponent + e := by
    rw [exponent_eq (isFinite_peak h.left), exponent_eq (isFinite_peak h.right), h.peak.log2_eq hpeak0]
    ring
  change (units (row'[j].scale (-row'.peak.exponent)) : ℚ) = units (row[j].scale (-row.peak.exponent)) * 2 ^ (0 : Int)
  rw [units_scale (h.left j) _ hscale, units_scale (h.right j) _ hscale', hexponent, zpow_zero, mul_one]
  generalize row.peak.exponent = k
  congr 1
  apply roundInt_congr (Nat.two_pow_pos _) (Nat.two_pow_pos _)
  rw [cast_mul_two_pow_div, cast_mul_two_pow_div, (h j).units_eq, mul_assoc, ← zpow_add₀ two_ne_zero]
  congr 2
  ring

theorem exists_shifted_of_whole {row : Row n} (finite : ∀ j : Fin n, row[j].isFinite = true)
    (hle : row.peak.magnitude ≤ 2 ^ 53 * unitsPerOne) (hxs : row.integers? = some xs) :
    ∃ d : Nat, 0 < d ∧ d ≤ 2 ^ 53 ∧ row.rescale.2 = .ofNat d ∧
      (∀ j : Fin n, row.rescale.1[j].isFinite = true ∧ row.rescale.1[j].units * d = row[j].units) ∧
      row.Shifted (-row.peak.exponent) (row.map (·.scale (-row.peak.exponent))) := by
  -- A row of integers within the exact range is divided by its content without rounding, and brought below
  -- one without rounding as well.
  obtain ⟨d, hd, hdle, hdivisor, hcells⟩ := rescale_integers finite hle hxs
  refine ⟨d, hd, hdle, hdivisor, ?_, ?_⟩
  . intro j
    obtain ⟨q, -, hj, hq⟩ := hcells j
    refine ⟨isFinite_of_integer? hq, ?_⟩
    rw [units_of_integer? hj, units_of_integer? hq]
    ring
  . intro j
    obtain ⟨q, -, hj, -⟩ := hcells j
    have hscale := (within_scale_peak finite j).left.isFinite
    simp only [getElem_fin, Vector.getElem_map]
    cases Nat.eq_zero_or_pos row[j].magnitude with
    | inl hzero => exact shifted_scale (finite j) (Or.inl hzero) (Or.inl hzero) hscale
    | inr hpos =>
      have hlow : unitsPerOne ≤ row[j].magnitude := by
        rw [magnitude_of_integer? hj] at hpos ⊢
        exact Nat.le_mul_of_pos_left _ (Nat.pos_of_mul_pos_right hpos)
      have hexponent := exponent_le (isFinite_peak finite) hle
      generalize row.peak.exponent = k at *
      obtain ⟨e, he⟩ : ∃ e, e = 1074 := ⟨_, rfl⟩
      rw [unitsPerOne_eq he] at hlow
      apply shifted_scale (finite j) (Or.inr _) (Or.inr _) hscale
      . exact Nat.le_trans (Nat.pow_le_pow_right (by decide) (by omega)) hlow
      . rw [← Nat.pow_add]
        apply Nat.le_trans _ (Nat.le_trans hlow (Nat.le_mul_of_pos_right _ (Nat.two_pow_pos _)))
        exact Nat.pow_le_pow_right (by decide) (by omega)

theorem exists_eq_zpow {x : Binary64} (hx : x.isFinite = true) (hfinite : (twoPow x.exponent).isFinite = true)
    (hd : d ≤ 2 ^ 53) (h : (ofNat d).IsPowerApart (twoPow x.exponent)) : ∃ i : Int, (d : ℚ) = 2 ^ i := by
  -- A content that is a power of two apart from the power of two above a peak is a power of two.
  have hrange := (log2_lt_iff _).mpr (magnitude_lt_rangeEnd x)
  have hexponent := exponent_eq hx
  have htop : x.exponent < 1024 := by
    by_contra hge
    have heq : x.exponent = 1024 := by omega
    have hpow : (twoPow 1024).isFinite = false := by decide +kernel
    rw [heq, hpow] at hfinite
    cases hfinite
  obtain ⟨one, hone⟩ : ∃ one, one = 1074 := ⟨_, rfl⟩
  obtain ⟨i, hi⟩ := h.symm.exists_eq
  rw [(twoPow_spec (by omega) htop).right, magnitude_ofNat hd, unitsPerOne_eq hone] at hi
  push_cast at hi
  generalize (x.exponent + 1074).toNat = p at hi
  refine ⟨p + i - one, ?_⟩
  rw [zpow_sub₀ two_ne_zero, zpow_add₀ two_ne_zero, zpow_natCast, zpow_natCast, ← hi]
  exact (mul_div_cancel_right₀ _ (pow_ne_zero one two_ne_zero)).symm

theorem exists_rescale_scale_exponent {row : Row n} (finite : ∀ j : Fin n, row[j].isFinite = true)
    (hwhole : row.peak.magnitude ≤ 2 ^ 53 * unitsPerOne ∧ ∃ xs, row.integers? = some xs) {x : Binary64}
    (hx : x.isFinite = true) (hpow : (twoPow x.exponent).isFinite = true)
    (hdivisor : row.rescale.2.IsPowerApart (twoPow x.exponent)) :
    ∃ f, row.rescale.1.Shifted f (row.map (·.scale (-row.peak.exponent))) := by
  obtain ⟨hle, xs, hxs⟩ := hwhole
  obtain ⟨d, -, hdle, hcontent, hcells, hscale⟩ := exists_shifted_of_whole finite hle hxs
  rw [hcontent] at hdivisor
  obtain ⟨i, hi⟩ := exists_eq_zpow hx hpow hdle hdivisor
  have hcontents : row.rescale.1.Shifted i row := by
    intro j
    obtain ⟨hfinite, hunits⟩ := hcells j
    refine ⟨hfinite, finite j, ?_⟩
    rw [← hunits, ← hi]
    push_cast
    rfl
  exact ⟨_, hcontents.trans hscale⟩

theorem Shifted.exists_rescale_of_whole {row row' : Row n} (h : row.Shifted e row')
    (hwhole : row.peak.magnitude ≤ 2 ^ 53 * unitsPerOne ∧ ∃ xs, row.integers? = some xs)
    (hwhole' : row'.peak.magnitude ≤ 2 ^ 53 * unitsPerOne ∧ ∃ xs, row'.integers? = some xs)
    (hdivisor : row.rescale.2.IsPowerApart row'.rescale.2) : ∃ f, row.rescale.1.Shifted f row'.rescale.1 := by
  -- Rows that are both divided by their content stay a power of two apart if the contents are.
  obtain ⟨hle, xs, hxs⟩ := hwhole
  obtain ⟨hle', xs', hxs'⟩ := hwhole'
  obtain ⟨d, -, hdle, hcontent, hcells, -⟩ := exists_shifted_of_whole h.left hle hxs
  obtain ⟨d', hd', hdle', hcontent', hcells', -⟩ := exists_shifted_of_whole h.right hle' hxs'
  rw [hcontent, hcontent'] at hdivisor
  obtain ⟨i, hi⟩ := hdivisor.exists_eq
  rw [magnitude_ofNat hdle, magnitude_ofNat hdle'] at hi
  push_cast at hi
  have hcontents : (d' : ℚ) = d * 2 ^ i := by
    apply mul_right_cancel₀ unitsPerOne_cast_ne_zero
    rw [hi]
    ring
  refine ⟨e - i, fun j => ⟨(hcells j).left, (hcells' j).left, ?_⟩⟩
  have hunits : ((row.rescale.1[j].units * d : Int) : ℚ) = row[j].units := by rw [(hcells j).right]
  have hunits' : ((row'.rescale.1[j].units * d' : Int) : ℚ) = row'[j].units := by rw [(hcells' j).right]
  have hd0 : (d' : ℚ) ≠ 0 := Nat.cast_ne_zero.mpr (by omega)
  push_cast at hunits hunits'
  apply mul_right_cancel₀ hd0
  rw [hunits', (h j).units_eq, ← hunits, hcontents, zpow_sub₀ two_ne_zero]
  field_simp

theorem Shifted.exists_rescale {row row' : Row n} (h : row.Shifted e row') (hfinite : row.rescale.2.isFinite = true)
    (hfinite' : row'.rescale.2.isFinite = true) (hdivisor : row.rescale.2.IsPowerApart row'.rescale.2) :
    ∃ f, row.rescale.1.Shifted f row'.rescale.1 := by
  cases hpeak : row.peak.isZero with
  | true =>
    rw [rescale_of_isZero hpeak, rescale_of_isZero (by rwa [h.peak.isZero_eq])]
    exact ⟨e, h⟩
  | false =>
    have hscale := h.scale_exponent hpeak
    cases rescale_cases h.left with
    | inl hwhole =>
      cases rescale_cases h.right with
      | inl hwhole' =>
        exact h.exists_rescale_of_whole hwhole hwhole' hdivisor
      | inr hscaled' =>
        -- The content is a power of two here, so the first row could have been brought below one as well.
        rw [hscaled'] at hfinite' hdivisor ⊢
        obtain ⟨f, hf⟩ := exists_rescale_scale_exponent h.left hwhole (isFinite_peak h.right) hfinite' hdivisor
        exact ⟨_, hf.trans hscale⟩
    | inr hscaled =>
      cases rescale_cases h.right with
      | inl hwhole' =>
        rw [hscaled] at hfinite hdivisor ⊢
        obtain ⟨f, hf⟩ :=
          exists_rescale_scale_exponent h.right hwhole' (isFinite_peak h.left) hfinite hdivisor.symm
        exact ⟨_, hscale.trans hf.symm⟩
      | inr hscaled' =>
        rw [hscaled, hscaled']
        exact ⟨0, hscale⟩

/-!
### Rows below one
-/

theorem rescale_of_lt_one {row : Row n} (finite : ∀ j : Fin n, row[j].isFinite = true)
    (hlt : ∀ j : Fin n, row[j].magnitude < unitsPerOne) (hpeak : row.peak.isZero = false) :
    row.rescale = (row.map (·.scale (-row.peak.exponent)), .twoPow row.peak.exponent) := by
  apply rescale_of_not_integers? finite hpeak
  intro _
  cases hxs : row.integers? with
  | none => rfl
  | some xs =>
    have hall : ∀ j : Fin n, row[j].isZero = true := by
      intro j
      by_contra hj
      rw [Bool.not_eq_true] at hj
      obtain ⟨i, -, hi⟩ := exists_integer? hxs j
      rw [integer?_eq_none_of_lt (hlt j) hj] at hi
      cases hi
    rw [(isZero_peak_iff finite).mpr hall] at hpeak
    cases hpeak

theorem exponent_peak_range {row : Row n} (finite : ∀ j : Fin n, row[j].isFinite = true)
    (hlt : ∀ j : Fin n, row[j].magnitude < unitsPerOne) :
    -1074 ≤ row.peak.exponent ∧ row.peak.exponent < 1024 := by
  have hpeak := (peak_within finite fun j => Nat.le_of_lt (hlt j)).magnitude_le
  have hone := Nat.le_mul_of_pos_left unitsPerOne (Nat.two_pow_pos 53)
  have hle := exponent_le (isFinite_peak finite) (Nat.le_trans hpeak hone)
  rw [exponent_eq (isFinite_peak finite)] at hle ⊢
  omega

theorem Scaled.rescale_of_lt_one {row row' : Row n} (h : row.Scaled e row')
    (hlt : ∀ j : Fin n, row[j].magnitude < unitsPerOne) (hlt' : ∀ j : Fin n, row'[j].magnitude < unitsPerOne) :
    row'.rescale.1 = row.rescale.1 ∧ row.rescale.2.IsPowerApart row'.rescale.2 := by
  cases hpeak : row.peak.isZero with
  | true =>
    -- Zeros that are a power of two apart are equal.
    have hzero := (isZero_peak_iff h.shifted.left).mp hpeak
    have heq : row' = row := by
      apply Scaled.eq
      intro j
      have hunits := (isZero_iff.mp (hzero j)).right
      refine ⟨⟨h.shifted.left j, h.shifted.right j, ?_⟩, (h j).isNegative_eq⟩
      rw [(h j).shifted.units_eq, hunits, Int.cast_zero, zero_mul, zero_mul]
    rw [heq]
    exact ⟨rfl, rfl⟩
  | false =>
    have hpeak' : row'.peak.isZero = false := by rwa [h.shifted.peak.isZero_eq]
    rw [Row.rescale_of_lt_one h.shifted.left hlt hpeak, Row.rescale_of_lt_one h.shifted.right hlt' hpeak']
    constructor
    . apply Scaled.eq
      intro j
      have hsign :
          (row'[j].scale (-row'.peak.exponent)).isNegative = (row[j].scale (-row.peak.exponent)).isNegative := by
        rw [isNegative_scale (h.shifted.right j), isNegative_scale (h.shifted.left j), (h j).isNegative_eq]
      refine ⟨h.shifted.scale_exponent hpeak j, ?_⟩
      simpa only [getElem_fin, Vector.getElem_map] using hsign
    . exact isPowerApart_twoPow (exponent_peak_range h.shifted.left hlt) (exponent_peak_range h.shifted.right hlt')

end RowSweep.Row
