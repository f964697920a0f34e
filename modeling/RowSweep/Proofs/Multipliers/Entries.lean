import RowSweep.Proofs.Binary64.Value
import RowSweep.Proofs.Multipliers.Cancel

/-!
This module contains the multipliers of any two nonzero entries. Integers of the exact range get whole multipliers in
lowest terms, all other entries proportions of which the larger one is one. Either way the terms get opposite signs.
-/

namespace RowSweep

open Binary64

attribute [local irreducible] unitsPerOne

namespace Binary64

def IsExactInteger (x : Binary64) : Prop :=
  ∃ i : Int, x.toRat = i ∧ i.natAbs ≤ 2 ^ 53

def IsProportion (x : Binary64) : Prop :=
  x.isFinite = true ∧ 0 ≤ x.toRat ∧ x.toRat ≤ 1

theorem exactInteger?_eq_some_iff_toRat {x : Binary64} (hx : x.isFinite = true) :
    x.exactInteger? = some i ↔ x.toRat = i ∧ i.natAbs ≤ 2 ^ 53 := by
  rw [exactInteger?_eq_some, integer?_eq_some, and_iff_right hx, toRat, div_eq_iff unitsPerOne_cast_ne_zero]
  norm_cast

theorem IsUnsigned.isProportion (hx : IsUnsigned x) (hle : x.magnitude ≤ unitsPerOne) : x.IsProportion := by
  refine ⟨hx.isFinite, ?_, ?_⟩
  . rw [toRat, hx.units_eq]
    positivity
  . rw [toRat, hx.units_eq, div_le_one unitsPerOne_cast_pos]
    exact_mod_cast hle

theorem max_eq_one (hx : IsUnsigned x) (hy : IsUnsigned y) (hxle : x.magnitude ≤ unitsPerOne)
    (hyle : y.magnitude ≤ unitsPerOne) (hone : x = one ∨ y = one) : x.max y = one := by
  apply (isUnsigned_max hx hy).eq isUnsigned_one
  rw [magnitude_max hx hy, magnitude_one]
  cases hone with
  | inl hx1 =>
    rw [hx1, magnitude_one]
    exact Nat.max_eq_left hyle
  | inr hy1 =>
    rw [hy1, magnitude_one]
    exact Nat.max_eq_right hxle

theorem abs_toRat_le_abs_toRat_iff {x y : Binary64} : |x.toRat| ≤ |y.toRat| ↔ x.magnitude ≤ y.magnitude := by
  rw [abs_toRat, abs_toRat, div_le_div_iff_of_pos_right unitsPerOne_cast_pos, Nat.cast_le]

end Binary64

namespace Multipliers

/--
Multipliers in proportion to the entries `x` and `y`. The larger entry is divided by itself, and the sign is the
opposite of that of the product.
-/
structure IsScaled (k : Multipliers) (x y : Binary64) : Prop where
  integral : k.integral = false
  gcd_eq : k.gcd = 1
  target : k.target.IsProportion
  copy : k.copy.IsProportion
  max_eq : k.target.max k.copy = .one
  of_le : |x.toRat| ≤ |y.toRat| → k.target = .one ∧ k.copy = x.abs / y.abs
  of_ge : |y.toRat| ≤ |x.toRat| → k.copy = .one ∧ k.target = y.abs / x.abs
  sign : k.sign.toInt * (x.toRat * y.toRat) < 0

variable {upper lower : Binary64} (hupper : upper.isFinite = true) (hlower : lower.isFinite = true)
variable (hupper0 : upper.isZero = false) (hlower0 : lower.isZero = false)

include hupper hlower hupper0 hlower0

theorem sign_mul_toRat_neg :
    ((if upper.isPositive == lower.isPositive then Sign.minus else .plus).toInt : ℚ) *
      (upper.toRat * lower.toRat) < 0 := by
  have hpos := Nat.mul_pos (Nat.pos_of_ne_zero (magnitude_ne_zero hupper hupper0))
    (Nat.pos_of_ne_zero (magnitude_ne_zero hlower hlower0))
  have hunits : -(upper.units.sign * lower.units.sign) * (upper.units * lower.units) =
      -((upper.magnitude * lower.magnitude : Nat) : Int) := by
    rw [Int.natCast_mul, magnitude, magnitude, ← Int.sign_mul_self, ← Int.sign_mul_self]
    ring
  rw [Sign.toInt_eq_neg_sign hupper hlower hupper0 hlower0, toRat, toRat, div_mul_div_comm, ← mul_div_assoc]
  apply div_neg_of_neg_of_pos
  . have hneg : -(upper.units.sign * lower.units.sign) * (upper.units * lower.units) < 0 := by omega
    exact_mod_cast hneg
  . exact mul_pos unitsPerOne_cast_pos unitsPerOne_cast_pos

omit hupper0 in
theorem scaling_of_le (hle : upper.magnitude ≤ lower.magnitude) :
    (scaling upper lower).target = .one ∧ (scaling upper lower).copy = upper.abs / lower.abs := by
  have hne := magnitude_ne_zero hlower hlower0
  unfold scaling
  dsimp only
  rw [larger_eq_right hupper hlower hle]
  exact ⟨div_self_of_ne_zero (isUnsigned_abs hlower) (by rwa [magnitude_abs]), rfl⟩

omit hlower0 in
theorem scaling_of_ge (hge : lower.magnitude ≤ upper.magnitude) :
    (scaling upper lower).copy = .one ∧ (scaling upper lower).target = lower.abs / upper.abs := by
  have hne := magnitude_ne_zero hupper hupper0
  unfold scaling
  dsimp only
  rw [larger_eq_left hupper hlower hge]
  exact ⟨div_self_of_ne_zero (isUnsigned_abs hupper) (by rwa [magnitude_abs]), rfl⟩

theorem isScaled_scaling : (scaling upper lower).IsScaled upper lower := by
  obtain ⟨htarget, -, htargetle⟩ := target_scaling_spec hupper hlower hupper0
  obtain ⟨hcopy, -, hcopyle⟩ := copy_scaling_spec hupper hlower hupper0
  have of_le := scaling_of_le hupper hlower hlower0
  have of_ge := scaling_of_ge hupper hlower hupper0
  have hone : (scaling upper lower).target = .one ∨ (scaling upper lower).copy = .one := by
    cases Nat.le_total upper.magnitude lower.magnitude with
    | inl hle => exact Or.inl (of_le hle).left
    | inr hge => exact Or.inr (of_ge hge).left
  exact {
    integral := rfl
    gcd_eq := rfl
    target := htarget.isProportion htargetle
    copy := hcopy.isProportion hcopyle
    max_eq := max_eq_one htarget hcopy htargetle hcopyle hone
    of_le := fun hle => of_le (abs_toRat_le_abs_toRat_iff.mp hle)
    of_ge := fun hge => of_ge (abs_toRat_le_abs_toRat_iff.mp hge)
    sign := sign_mul_toRat_neg hupper hlower hupper0 hlower0
  }

omit hupper hlower hupper0 hlower0

theorem integral?_ofEntries {x y : Int} (hx : upper.exactInteger? = some x) (hy : lower.exactInteger? = some y) :
    integral? upper lower = some (ofEntries true upper lower) := by
  have hk := integral?_eq_some.mpr ⟨x, y, hx, hy, rfl⟩
  unfold ofEntries
  rw [hk]
  rfl

include hupper hlower

theorem ofEntries_eq_scaling (hnot : ¬ (integerRatio = true ∧ upper.IsExactInteger ∧ lower.IsExactInteger)) :
    ofEntries integerRatio upper lower = scaling upper lower := by
  cases integerRatio with
  | false => rfl
  | true =>
    cases hk : integral? upper lower with
    | none =>
      unfold ofEntries
      rw [hk]
      rfl
    | some k =>
      obtain ⟨x, y, hx, hy, -⟩ := integral?_eq_some.mp hk
      rw [exactInteger?_eq_some_iff_toRat hupper] at hx
      rw [exactInteger?_eq_some_iff_toRat hlower] at hy
      exact absurd ⟨rfl, ⟨x, hx⟩, ⟨y, hy⟩⟩ hnot

end Multipliers

theorem multipliers_of_entries {upper lower : Binary64} (hupper : upper.isFinite = true)
    (hlower : lower.isFinite = true) (hupper0 : upper.isZero = false) (hlower0 : lower.isZero = false)
    (integerRatio : Bool) :
    ∃ k, Multipliers.ofEntries? integerRatio upper lower = some k ∧
      (∀ x y : Int, integerRatio = true → upper.toRat = x → x.natAbs ≤ 2 ^ 53 → lower.toRat = y →
        y.natAbs ≤ 2 ^ 53 → ∃ t w, k.InLowestTerms x y t w) ∧
      (¬ (integerRatio = true ∧ upper.IsExactInteger ∧ lower.IsExactInteger) → k.IsScaled upper lower) := by
  have hsome : Multipliers.ofEntries? integerRatio upper lower = some (.ofEntries integerRatio upper lower) := by
    unfold Multipliers.ofEntries?
    simp [hupper0, hlower0]
  refine ⟨_, hsome, ?_, ?_⟩
  . intro x y hratio hx hxle hy hyle
    subst hratio
    have hx := (exactInteger?_eq_some_iff_toRat hupper).mpr ⟨hx, hxle⟩
    have hy := (exactInteger?_eq_some_iff_toRat hlower).mpr ⟨hy, hyle⟩
    obtain ⟨x', y', t, w, hx', hy', hterms⟩ :=
      Multipliers.exists_inLowestTerms (Multipliers.integral?_ofEntries hx hy) hupper0 hlower0
    obtain rfl : x' = x := Option.some.inj (hx'.symm.trans hx)
    obtain rfl : y' = y := Option.some.inj (hy'.symm.trans hy)
    exact ⟨t, w, hterms⟩
  . intro hnot
    rw [Multipliers.ofEntries_eq_scaling hupper hlower hnot]
    exact Multipliers.isScaled_scaling hupper hlower hupper0 hlower0

theorem multipliers_of_largestInteger :
    let largest := Binary64.ofNat (2 ^ 53)
    let negative := -Binary64.ofNat (3 * 2 ^ 51)
    let beyond := Binary64.ofNat (2 ^ 53 + 2)
    let smallest := Binary64.twoPow (-1074)
    (largest.isFinite = true ∧ negative.isFinite = true ∧ largest.isZero = false ∧ negative.isZero = false ∧
      largest.toRat = (2 ^ 53 : Int) ∧ negative.toRat = (-(3 * 2 ^ 51) : Int) ∧
      ∃ k, Multipliers.ofEntries? true largest negative = some k ∧
        k.InLowestTerms (2 ^ 53) (-(3 * 2 ^ 51)) 3 4) ∧
    (beyond.isFinite = true ∧ smallest.isFinite = true ∧ beyond.isZero = false ∧ smallest.isZero = false ∧
      ¬ beyond.IsExactInteger ∧
      ∃ k, Multipliers.ofEntries? true beyond smallest = some k ∧ k.IsScaled beyond smallest ∧ k.target = .zero) := by
  intro largest negative beyond smallest
  have hlargest : largest.integer? = some (2 ^ 53) := by decide +kernel
  have hnegative : negative.integer? = some (-(3 * 2 ^ 51)) := by decide +kernel
  have hlargestRat := toRat_of_integer? hlargest
  have hnegativeRat := toRat_of_integer? hnegative
  have hlargest0 : largest.isZero = false := by decide +kernel
  have hnegative0 : negative.isZero = false := by decide +kernel
  have hbeyond : beyond.isFinite = true := by decide +kernel
  have hsmallest : smallest.isFinite = true := by decide +kernel
  have hbeyond0 : beyond.isZero = false := by decide +kernel
  have hsmallest0 : smallest.isZero = false := by decide +kernel
  have hnot : ¬ beyond.IsExactInteger := by
    intro hexact
    obtain ⟨i, hi⟩ := hexact
    have hnone : beyond.exactInteger? = none := by decide +kernel
    rw [← exactInteger?_eq_some_iff_toRat hbeyond, hnone] at hi
    cases hi
  obtain ⟨k, hk, hwhole, -⟩ := multipliers_of_entries (isFinite_of_integer? hlargest)
    (isFinite_of_integer? hnegative) hlargest0 hnegative0 true
  obtain ⟨t, w, hterms⟩ := hwhole _ _ rfl hlargestRat (by decide) hnegativeRat (by decide)
  have hgcd : k.gcd = 2 ^ 51 := by
    have heuclid : euclid? maxDivisions (2 ^ 53) (3 * 2 ^ 51) = some (2 ^ 51) := by decide
    exact Option.some.inj (hterms.euclid.symm.trans heuclid)
  have htarget := hterms.target_mul
  have hcopy := hterms.copy_mul
  rw [hgcd] at htarget hcopy
  obtain rfl : t = 3 := by omega
  obtain rfl : w = 4 := by omega
  obtain ⟨k', hk', -, hscaled⟩ := multipliers_of_entries hbeyond hsmallest hbeyond0 hsmallest0 true
  have hscaled := hscaled fun hall => hnot hall.right.left
  have htarget' : k'.target = .zero := by
    have hsmaller : smallest.magnitude ≤ beyond.magnitude := by decide +kernel
    have hratio : smallest.abs / beyond.abs = .zero := by decide +kernel
    rw [← hratio]
    exact (hscaled.of_ge (abs_toRat_le_abs_toRat_iff.mpr hsmaller)).right
  exact ⟨⟨isFinite_of_integer? hlargest, isFinite_of_integer? hnegative, hlargest0, hnegative0, hlargestRat,
    hnegativeRat, k, hk, hterms⟩, hbeyond, hsmallest, hbeyond0, hsmallest0, hnot, k', hk',
    hscaled, htarget'⟩

end RowSweep
