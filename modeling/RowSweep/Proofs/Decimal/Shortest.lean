import RowSweep.Decimal.Basic
import RowSweep.Proofs.Binary64.Units

/-!
This module contains the correctness of the shortest decimal: it reads back as the value that it was made for.
-/

namespace RowSweep

namespace Decimal

open Binary64

theorem gridUnits_pos (k : Int) : 0 < gridUnits k :=
  Nat.mul_pos unitsPerOne_pos (Nat.pow_pos (by decide))

theorem gridParts_pos (k : Int) : 0 < gridParts k :=
  Nat.pow_pos (by decide)

theorem gridUnits_add (k : Int) (n : Nat) :
    gridUnits (k + n) * gridParts k = 10 ^ n * gridUnits k * gridParts (k + n) := by
  have hexponent : (k + n).toNat + (-k).toNat = n + k.toNat + (-(k + n)).toNat := by omega
  unfold gridUnits gridParts
  generalize unitsPerOne = one
  calc
    one * 10 ^ (k + n).toNat * 10 ^ (-k).toNat = one * 10 ^ ((k + n).toNat + (-k).toNat) := by
      rw [Nat.pow_add, Nat.mul_assoc]
    _ = one * (10 ^ n * 10 ^ k.toNat * 10 ^ (-(k + n)).toNat) := by rw [hexponent, Nat.pow_add, Nat.pow_add]
    _ = 10 ^ n * (one * 10 ^ k.toNat) * 10 ^ (-(k + n)).toNat := by ac_rfl

theorem lt_pow_digitCount (n : Nat) : n < 10 ^ digitCount n :=
  (Nat.length_toDigits_le_iff (by decide) Nat.length_toDigits_pos).mp (Nat.le_refl _)

theorem pow_digitCount_le (hn : n ≠ 0) : 10 ^ (digitCount n - 1) ≤ n := by
  by_cases hone : digitCount n - 1 = 0
  . rw [hone]
    omega
  . apply Nat.le_of_not_lt
    intro hlt
    have hle := (Nat.length_toDigits_le_iff (b := 10) (by decide) (Nat.pos_of_ne_zero hone)).mpr hlt
    unfold digitCount at hone hle
    omega

theorem gridUnits_leadingExponent_le (hu : u ≠ 0) :
    gridUnits (leadingExponent u) ≤ u * gridParts (leadingExponent u) := by
  -- The leading digit is at most the value.
  have hone := unitsPerOne_pos
  unfold leadingExponent
  rw [if_neg hu]
  split
  next hle =>
    have hquotient : u / unitsPerOne ≠ 0 := by
      have := Nat.div_pos hle hone
      omega
    have hpos : 0 < digitCount (u / unitsPerOne) := Nat.length_toDigits_pos
    have hpow := pow_digitCount_le hquotient
    unfold gridUnits gridParts
    have htoNat : ((digitCount (u / unitsPerOne) : Int) - 1).toNat = digitCount (u / unitsPerOne) - 1 := by omega
    have hneg : (-((digitCount (u / unitsPerOne) : Int) - 1)).toNat = 0 := by omega
    rw [htoNat, hneg, Nat.pow_zero, Nat.mul_one, Nat.mul_comm]
    exact (Nat.le_div_iff_mul_le hone).mp hpow
  next hlt =>
    have hpow := lt_pow_digitCount ((unitsPerOne - 1) / u)
    rw [Nat.div_lt_iff_lt_mul (Nat.pos_of_ne_zero hu)] at hpow
    unfold gridUnits gridParts
    have htoNat : (-(digitCount ((unitsPerOne - 1) / u) : Int)).toNat = 0 := by omega
    have hneg : (- -(digitCount ((unitsPerOne - 1) / u) : Int)).toNat = digitCount ((unitsPerOne - 1) / u) := by omega
    rw [htoNat, hneg, Nat.pow_zero, Nat.mul_one, Nat.mul_comm]
    omega

-- None of these is to be computed with from here on.
attribute [local irreducible] readsBack gridUnits gridParts nearest

theorem readsBack_nearest (hg : 2 ^ spareBits u ∣ u) (h : 10 ^ 17 * gridUnits k ≤ u * gridParts k) :
    readsBack u (nearest (u * gridParts k) (gridUnits k)) k = true := by
  -- Eighteen digits always read back: their error is less than a quarter of a step of the grid.
  have herror := nearest_error (gridUnits_pos k) (u * gridParts k)
  have hstep : u * gridParts k ≤ 2 ^ 53 * (gridParts k * 2 ^ spareBits u) := by
    calc
      u * gridParts k ≤ 2 ^ 53 * 2 ^ spareBits u * gridParts k :=
        Nat.mul_le_mul_right _ (Nat.le_of_lt (lt_two_pow_spareBits u))
      _ = 2 ^ 53 * (gridParts k * 2 ^ spareBits u) := by ac_rfl
  have hunits := gridUnits_pos k
  unfold readsBack
  rw [beq_iff_eq]
  apply roundUnits_eq_of_error_lt (gridParts_pos k) hg <;> omega

theorem go_zero (u : Nat) (k : Int) :
    shortest.go u 0 k = ⟨nearest (u * gridParts k) (gridUnits k), k⟩ :=
  rfl

theorem go_succ (u n : Nat) (k : Int) :
    shortest.go u (n + 1) k =
      let below := u * gridParts k / gridUnits k
      match readsBack u below k, readsBack u (below + 1) k with
      | true, true => ⟨nearest (u * gridParts k) (gridUnits k), k⟩
      | true, false => ⟨below, k⟩
      | false, true => ⟨below + 1, k⟩
      | false, false => shortest.go u n (k - 1) :=
  rfl

theorem readsBack_go (hg : 2 ^ spareBits u ∣ u) (hu : u ≠ 0) (n : Nat) (k : Int)
    (hk : leadingExponent u + n = k + 17) :
    readsBack u (shortest.go u n k).digits (shortest.go u n k).exponent = true := by
  induction n generalizing k with
  | zero =>
    have hlead : k + (17 : Nat) = leadingExponent u := by omega
    have hshift := gridUnits_add k 17
    have hle := gridUnits_leadingExponent_le hu
    rw [hlead] at hshift
    rw [go_zero]
    apply readsBack_nearest hg
    apply Nat.le_of_mul_le_mul_right _ (gridParts_pos (leadingExponent u))
    calc
      10 ^ 17 * gridUnits k * gridParts (leadingExponent u) = gridUnits (leadingExponent u) * gridParts k := hshift.symm
      _ ≤ u * gridParts (leadingExponent u) * gridParts k := Nat.mul_le_mul_right _ hle
      _ = u * gridParts k * gridParts (leadingExponent u) := by ac_rfl
  | succ n ih =>
    rw [go_succ]
    dsimp only
    split
    next hbelow habove =>
      -- The nearest one is one of the two.
      have hlow := div_le_nearest (u * gridParts k) (gridUnits k)
      have hhigh := nearest_le (u * gridParts k) (gridUnits k)
      have heq : nearest (u * gridParts k) (gridUnits k) = u * gridParts k / gridUnits k ∨
          nearest (u * gridParts k) (gridUnits k) = u * gridParts k / gridUnits k + 1 := by omega
      cases heq with
      | inl heq => rwa [heq]
      | inr heq => rwa [heq]
    next hbelow _ => exact hbelow
    next _ habove => exact habove
    next => exact ih (k - 1) (by omega)

theorem readsBack_shortest (hg : 2 ^ spareBits u ∣ u) :
    readsBack u (shortest u).digits (shortest u).exponent = true := by
  unfold shortest
  by_cases hu : u = 0
  . simp [hu, readsBack, roundUnits_zero]
  . rw [if_neg hu]
    apply readsBack_go hg hu
    simp

end Decimal

end RowSweep
