import RowSweep.Proofs.Sweep.Overflow

/-!
This module contains the rescaling of a row as a division. Whether a row is divided by its content, by a power of
two or not at all, each cell of the new row is the old one over the divisor, rounded once.
-/

namespace RowSweep

open Binary64

attribute [local irreducible] unitsPerOne rangeEnd

namespace Binary64

theorem round_congr (hd : 0 < d) (hd' : 0 < d') (s : Bool) (h : n * d' = n' * d) :
    round s n d = round s n' d' := by
  unfold round
  dsimp only
  simp only [roundUnits_congr hd hd' h]

theorem finite_div (hv : v ≠ 0) (s : Bool) (hu : Fits u) (hv' : Fits v) :
    finite s u hu / finite false v hv' = round s (u * unitsPerOne) v := by
  show (if v = 0 then _ else round (s != false) (u * unitsPerOne) v) = _
  rw [if_neg hv, Bool.bne_false]

theorem one_eq_finite : ∃ hu, one = finite false unitsPerOne hu := by
  have hmagnitude := magnitude_one
  cases isUnsigned_ofNat (i := 1) (by decide) with
  | intro u hone =>
    cases hone with
    | intro hu heq =>
      rw [one_eq, heq, magnitude_finite] at hmagnitude
      subst hmagnitude
      exact ⟨hu, by rw [one_eq, heq]⟩

theorem div_one (x : Binary64) : x / one = x := by
  have hpos := unitsPerOne_pos
  cases one_eq_finite with
  | intro hu heq =>
    rw [heq]
    cases x with
    | nan => rfl
    | infinite s => simp [HDiv.hDiv, Div.div, div]
    | finite s u hu' =>
      rw [finite_div (by omega)]
      exact round_mul_self s hu' hpos

theorem zero_div (h : IsUnsigned d) (hd : d.magnitude ≠ 0) : zero / d = zero := by
  cases h with
  | intro v h =>
    cases h with
    | intro hv heq =>
      rw [heq, magnitude_finite] at hd
      have hround := round_mul_self false fits_zero (Nat.pos_of_ne_zero hd)
      rw [Nat.zero_mul] at hround
      rw [heq, zero, finite_div hd, Nat.zero_mul]
      exact hround

theorem div_twoPow (hlow : -1074 ≤ k) (hhigh : k < 1024) (hx : isFinite x = true) :
    x / twoPow k = x.scale (-k) := by
  have hpow := (twoPow_spec hlow hhigh).right
  have hpos := Nat.two_pow_pos (k + 1074).toNat
  have hratio : unitsPerOne * 2 ^ k.toNat = 2 ^ (k + 1074).toNat * 2 ^ (-k).toNat := by
    rw [unitsPerOne_eq rfl, ← Nat.pow_add, ← Nat.pow_add]
    congr 1
    omega
  cases isUnsigned_twoPow hlow hhigh with
  | intro v hv =>
    cases hv with
    | intro hv heq =>
      rw [heq, magnitude_finite] at hpow
      subst hpow
      rw [heq]
      cases x with
      | nan => cases hx
      | infinite s => cases hx
      | finite s u hu =>
        rw [finite_div (by omega)]
        show _ = round s (u * 2 ^ (-k).toNat) (2 ^ (- -k).toNat)
        apply round_congr hpos (Nat.two_pow_pos _)
        rw [Int.neg_neg, Nat.mul_assoc, hratio, Nat.mul_assoc, Nat.mul_comm (2 ^ (k + 1074).toNat)]

end Binary64

namespace Row

variable {row : Row n}

inductive Rescales (row : Row n) : Row n × Binary64 → Prop where
  | kept : Rescales row (row, .one)
  | divided (lt : 1 < d) (le : d ≤ 2 ^ 53) : Rescales row (row.map (· / .ofNat d), .ofNat d)
  | scaled (finite : ∀ j : Fin n, row[j].isFinite = true) (low : -1074 ≤ k) (high : k ≤ 1024) :
      Rescales row (row.map (·.scale (-k)), .twoPow k)

theorem rescales_rescale (row : Row n) : Rescales row row.rescale := by
  cases hpeak : row.peak.isFinite with
  | false =>
    have hkept : row.rescale = (row, .one) := by
      unfold rescale
      simp [hpeak]
    rw [hkept]
    apply Rescales.kept
  | true =>
    have finite := isFinite_of_isFinite_peak hpeak
    cases hzero : row.peak.isZero with
    | true =>
      rw [rescale_of_isZero hzero]
      apply Rescales.kept
    | false =>
      cases rescale_cases finite with
      | inl h =>
        cases h.right with
        | intro xs hxs =>
          have hcontent := content_spec finite hzero h.left hxs
          rw [rescale_of_integers? finite hzero h.left hxs]
          split
          next hlt => exact Rescales.divided hlt hcontent.right.left
          next hone =>
            have hd : content xs = 1 := by omega
            rw [hd, ← one_eq]
            apply Rescales.kept
      | inr h =>
        have hrange := (log2_lt_iff _).mpr (magnitude_lt_rangeEnd row.peak)
        rw [h]
        apply Rescales.scaled finite
        . rw [exponent_eq hpeak]
          omega
        . rw [exponent_eq hpeak]
          omega

theorem lt_of_isFinite_twoPow (hk : k ≤ 1024) (h : (twoPow k).isFinite = true) : k < 1024 := by
  apply Classical.byContradiction
  intro hge
  have htop : k = 1024 := by omega
  have hinfinite : (twoPow 1024).isFinite = false := by decide +kernel
  rw [htop, hinfinite] at h
  cases h

theorem isUnsigned_divisor (h : row.rescale.2.isFinite = true) :
    IsUnsigned row.rescale.2 ∧ row.rescale.2.magnitude ≠ 0 := by
  -- The divisor is a positive number.
  have hrescales := rescales_rescale row
  generalize row.rescale = rescaled at hrescales h
  have hpos := unitsPerOne_pos
  cases hrescales with
  | kept =>
    dsimp only
    rw [magnitude_one, one_eq]
    exact ⟨isUnsigned_ofNat (by decide), by omega⟩
  | @divided d hlt hle =>
    dsimp only
    rw [magnitude_ofNat hle]
    exact ⟨isUnsigned_ofNat hle, Nat.ne_of_gt (Nat.mul_pos (by omega) hpos)⟩
  | @scaled k finite low high =>
    have hlt := lt_of_isFinite_twoPow high h
    have hpow := Nat.two_pow_pos (k + 1074).toNat
    dsimp only
    rw [(twoPow_spec low hlt).right]
    exact ⟨isUnsigned_twoPow low hlt, by omega⟩

theorem getElem_rescale (h : row.rescale.2.isFinite = true) (j : Fin n) :
    row.rescale.1[j] = row[j] / row.rescale.2 := by
  have hrescales := rescales_rescale row
  generalize row.rescale = rescaled at hrescales h
  cases hrescales with
  | kept => rw [div_one]
  | divided => simp [getElem_fin]
  | scaled finite low high =>
    rw [div_twoPow low (lt_of_isFinite_twoPow high h) (finite j)]
    simp [getElem_fin]

end Row

end RowSweep
