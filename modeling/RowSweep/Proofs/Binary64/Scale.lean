import RowSweep.Proofs.Binary64.Error
import RowSweep.Proofs.Binary64.Shift

/-!
This module contains when scaling by a power of two is exact: a value keeps all its digits if none of them falls below
the smallest unit, and at most half a unit is rounded to zero.
-/

namespace RowSweep.Binary64

attribute [local irreducible] unitsPerOne rangeEnd

theorem spareBits_dvd_iff : 2 ^ spareBits u ∣ u ↔ roundUnits u 1 = u := by
  constructor
  . exact roundUnits_one_of_dvd
  . intro hround
    rw [← hround]
    apply spareBits_dvd_roundUnits

theorem spareBits_dvd_mul_iff (u k : Nat) : 2 ^ spareBits (u * 2 ^ k) ∣ u * 2 ^ k ↔ 2 ^ spareBits u ∣ u := by
  have hpos := Nat.two_pow_pos k
  rw [spareBits_dvd_iff, spareBits_dvd_iff, roundUnits_one_mul_two_pow, Nat.mul_left_inj (by omega)]

theorem roundUnits_two_pow_eq_iff (h : 2 ^ spareBits u ∣ u) : roundUnits u (2 ^ k) * 2 ^ k = u ↔ 2 ^ k ∣ u := by
  constructor
  . apply Dvd.intro_left
  . intro hdvd
    cases hdvd with
    | intro q hq =>
      rw [Nat.mul_comm] at hq
      subst hq
      rw [roundUnits_of_dvd (Nat.two_pow_pos k) ((spareBits_dvd_mul_iff q k).mp h)]

theorem roundUnits_eq_zero_iff (hd : 0 < d) : roundUnits n d = 0 ↔ 2 * n ≤ d := by
  by_cases hlt : n < d
  . have hround : roundUnits n d = nearest n d := by
      unfold roundUnits
      rw [Nat.div_eq_of_lt hlt, spareBits_eq_zero (by decide)]
      simp
    rw [hround]
    unfold nearest
    rw [Nat.div_eq_of_lt hlt, Nat.mod_eq_of_lt hlt]
    dsimp only
    split <;> omega
  . have hone := le_roundUnits (g := 1) hd (by decide) (by omega : 1 * d ≤ n)
    omega

theorem roundInt_mul_eq_iff (z : Int) (d p : Nat) :
    roundInt z d * p = z ↔ roundUnits z.natAbs d * p = z.natAbs := by
  by_cases hz : z = 0
  . simp [hz, roundInt, roundUnits_zero]
  . have hsign : z.sign ≠ 0 := mt Int.sign_eq_zero_iff_zero.mp hz
    unfold roundInt
    rw [Int.mul_assoc]
    conv_lhs =>
      rhs
      rw [← Int.sign_mul_natAbs z]
    rw [Int.mul_eq_mul_left_iff hsign]
    exact_mod_cast Iff.rfl

theorem shifted_scale_iff {x : Binary64} {k : Int} (hx : x.isFinite = true) (hxk : (x.scale k).isFinite = true) :
    Shifted k x (x.scale k) ↔ 2 ^ (-k).toNat ∣ x.magnitude := by
  have hunits := units_scale hx k hxk
  have hshifted : Shifted k x (x.scale k) ↔ (x.scale k).units * (2 ^ (-k).toNat : Nat) = x.units * 2 ^ k.toNat := by
    constructor
    . intro h
      have heq := h.units_eq
      rw [eq_mul_zpow_iff] at heq
      exact_mod_cast heq
    . intro h
      refine ⟨hx, hxk, ?_⟩
      rw [eq_mul_zpow_iff]
      exact_mod_cast h
  have hmagnitude : (x.units * 2 ^ k.toNat).natAbs = x.magnitude * 2 ^ k.toNat := by
    rw [Int.natAbs_mul, Int.natAbs_pow]
    rfl
  rw [hshifted, hunits, roundInt_mul_eq_iff, hmagnitude,
    roundUnits_two_pow_eq_iff ((spareBits_dvd_mul_iff _ _).mpr (spareBits_dvd_magnitude x))]
  -- At most one of the two powers is not one.
  cases Int.le_total 0 k with
  | inl hk =>
    have hzero : (-k).toNat = 0 := by omega
    simp [hzero]
  | inr hk =>
    have hzero : k.toNat = 0 := by omega
    simp [hzero]

theorem toRat_twoPow (hlow : -1074 ≤ k) (hhigh : k < 1024) : (twoPow k).toRat = 2 ^ k := by
  obtain ⟨one, hone⟩ : ∃ one, one = 1074 := ⟨_, rfl⟩
  rw [(isUnsigned_twoPow hlow hhigh).toRat_eq, (twoPow_spec hlow hhigh).right, unitsPerOne_eq hone,
    div_eq_iff (by positivity)]
  push_cast
  rw [← zpow_natCast, ← zpow_natCast, ← zpow_add₀ two_ne_zero]
  congr 1
  omega

theorem toRat_eq_mul_iff {x y : Binary64} {k : Int} (hx : x.isFinite = true) (hy : y.isFinite = true) :
    x.toRat = 2 ^ k * y.toRat ↔ Shifted (-k) x y := by
  have hunits : x.toRat = 2 ^ k * y.toRat ↔ (y.units : ℚ) = x.units * 2 ^ (-k) := by
    unfold toRat
    rw [zpow_neg, ← div_eq_mul_inv, eq_div_iff (zpow_ne_zero k two_ne_zero), ← mul_div_assoc,
      div_left_inj' unitsPerOne_cast_ne_zero]
    constructor <;> intro h <;> linarith
  rw [hunits]
  constructor
  . exact fun h => ⟨hx, hy, h⟩
  . exact fun h => h.units_eq

end RowSweep.Binary64
