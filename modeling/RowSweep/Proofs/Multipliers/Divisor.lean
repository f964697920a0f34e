import RowSweep.Proofs.Row.Rescale

/-!
This module contains Euclid's algorithm with a limit on its divisions. What it finds is the greatest common divisor. Two
divisions at least halve the smaller number, so the integers of the exact range are far from the limit.
-/

namespace RowSweep

open Binary64

attribute [local irreducible] unitsPerOne

def euclid? (k x y : Nat) : Option Nat :=
  if y = 0 then some x
  else
    match k with
    | 0 => none
    | k + 1 => euclid? k y (x % y)

theorem gcd_mod_eq (x y : Nat) : Nat.gcd y (x % y) = Nat.gcd x y := by
  rw [Nat.gcd_comm y, ← Nat.gcd_rec, Nat.gcd_comm]

theorem euclid?_eq (k x y : Nat) : euclid? k x y = if endsWithin k x y then some (Nat.gcd x y) else none := by
  induction k generalizing x y with
  | zero =>
    unfold euclid? endsWithin
    by_cases hy : y = 0
    . simp [hy]
    . simp [hy]
  | succ k ih =>
    unfold euclid? endsWithin
    by_cases hy : y = 0
    . simp [hy]
    -- Both go on with the same two numbers, which have the same common divisors.
    . simp only [hy, ↓reduceIte, ih, gcd_mod_eq]

theorem commonDivisor_eq_ok_iff {x y : Int} {d : Nat} :
    commonDivisor x y = .ok d ↔ 0 ≤ x ∧ 0 ≤ y ∧ euclid? maxDivisions x.natAbs y.natAbs = some d := by
  rw [euclid?_eq]
  unfold commonDivisor
  by_cases hneg : x < 0 ∨ y < 0
  . rw [if_pos hneg]
    apply iff_of_false
    . simp
    . omega
  . rw [if_neg hneg]
    have hx : 0 ≤ x := by omega
    have hy : 0 ≤ y := by omega
    simp only [hx, hy, true_and]
    split
    . simp
    . simp

theorem isGreatest_gcd {x y : Nat} (hx : x ≠ 0) : IsGreatest {d : Nat | d ∣ x ∧ d ∣ y} (Nat.gcd x y) := by
  constructor
  . exact ⟨Nat.gcd_dvd_left x y, Nat.gcd_dvd_right x y⟩
  . intro d hd
    apply Nat.le_of_dvd
    . exact Nat.gcd_pos_of_pos_left y (Nat.pos_of_ne_zero hx)
    . exact Nat.dvd_gcd hd.left hd.right

theorem two_mul_mod_lt {x y : Nat} (hy : 0 < y) (hle : y ≤ x) : 2 * (x % y) < x := by
  have hmod := Nat.mod_lt x hy
  have hdiv := Nat.div_add_mod x y
  have hpos : y * 1 ≤ y * (x / y) := Nat.mul_le_mul_left y (Nat.div_pos hle hy)
  omega

theorem endsWithin_of_lt_two_pow {x y k j : Nat} (hy : y < 2 ^ j) (hk : 2 * j ≤ k) : endsWithin k x y = true := by
  -- By induction on the digits of the smaller number, of which two divisions take at least one.
  induction j generalizing x y k with
  | zero =>
    obtain rfl : y = 0 := by omega
    cases k <;> rfl
  | succ j ih =>
    obtain ⟨k, rfl⟩ : ∃ k', k = k' + 2 := ⟨k - 2, by omega⟩
    by_cases hy0 : y = 0
    . rw [hy0]
      rfl
    . rw [endsWithin, if_neg hy0]
      by_cases hmod : x % y = 0
      . rw [hmod]
        rfl
      . rw [endsWithin, if_neg hmod]
        have hlt := Nat.mod_lt x (Nat.pos_of_ne_zero hy0)
        have hhalf := two_mul_mod_lt (Nat.pos_of_ne_zero hmod) (Nat.le_of_lt hlt)
        rw [Nat.pow_succ] at hy
        exact ih (by omega) (by omega)

theorem euclid?_of_le {x y : Nat} (hy : y ≤ 2 ^ 53) : euclid? maxDivisions x y = some (Nat.gcd x y) := by
  rw [euclid?_eq, if_pos (endsWithin_of_lt_two_pow (j := 54) (by omega) (by decide))]

theorem commonDivisor_natCast {x y : Nat} (hy : y ≤ 2 ^ 53) : commonDivisor x y = .ok (Nat.gcd x y) := by
  rw [commonDivisor_eq_ok_iff, Int.natAbs_natCast, Int.natAbs_natCast]
  exact ⟨Int.natCast_nonneg x, Int.natCast_nonneg y, euclid?_of_le hy⟩

theorem Binary64.commonDivisor_of_exactInteger? {y : Binary64} (hy : y.exactInteger? = some j) (i : Int) :
    commonDivisor i.natAbs j.natAbs = .ok (Nat.gcd i.natAbs j.natAbs) :=
  commonDivisor_natCast (exactInteger?_eq_some.mp hy).right

namespace Row

def contentByDivision (xs : List Int) : Except DivisorFault Nat :=
  (xs.filter (· ≠ 0)).foldlM (fun (d : Nat) x => commonDivisor d x.natAbs) 0

theorem foldlM_commonDivisor {xs : List Int} (hxs : ∀ x ∈ xs, x.natAbs ≤ 2 ^ 53) (a : Nat) :
    (xs.filter (· ≠ 0)).foldlM (fun (d : Nat) x => commonDivisor d x.natAbs) a =
      .ok (xs.foldl (fun d x => Nat.gcd d x.natAbs) a) := by
  induction xs generalizing a with
  | nil => rfl
  | cons x xs ih =>
    have ih := ih fun y hy => hxs y (List.mem_cons_of_mem x hy)
    rw [List.foldl_cons]
    by_cases hx : x = 0
    . subst hx
      rw [List.filter_cons_of_neg (by simp), Int.natAbs_zero, Nat.gcd_zero_right]
      exact ih a
    . rw [List.filter_cons_of_pos (by simpa using hx), List.foldlM_cons,
        commonDivisor_natCast (hxs x List.mem_cons_self)]
      exact ih _

theorem contentByDivision_eq {row : Row n} {xs : List Int} (hpeak : row.peak.le exactLimit = true)
    (hxs : row.integers? = some xs) : contentByDivision xs = .ok (content xs) := by
  have finite : ∀ j : Fin n, row[j].isFinite = true := by
    intro j
    obtain ⟨i, -, hi⟩ := exists_integer? hxs j
    exact isFinite_of_integer? hi
  have hpos := unitsPerOne_pos
  rw [le_exactLimit_iff (isFinite_peak finite), units_peak finite] at hpeak
  apply foldlM_commonDivisor
  intro x hx
  have hmem : some x ∈ row.toList.map (·.integer?) := by
    rw [integers?_eq_some.mp hxs]
    exact List.mem_map_of_mem hx
  obtain ⟨cell, hcell, hinteger⟩ := List.mem_map.mp hmem
  have hle : cell.magnitude ≤ row.peak.magnitude :=
    forall_mem_toList (P := fun x => x.magnitude ≤ row.peak.magnitude) |>.mpr (magnitude_le_peak finite) cell hcell
  rw [magnitude_of_integer? hinteger] at hle
  exact Nat.le_of_mul_le_mul_right (by omega) hpos

end Row

end RowSweep
