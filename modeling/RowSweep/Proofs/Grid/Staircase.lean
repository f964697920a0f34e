import Mathlib

/-!
This module contains the null vectors of rational rows whose first entries move to the right from row to row. The
columns without such an entry take any values, and the other values follow from them.
-/

namespace RowSweep

structure Staircase (row : Fin k → Fin n → ℚ) (lead : Fin k → Fin n) : Prop where
  strictMono : StrictMono lead
  entry : ∀ i, row i (lead i) ≠ 0
  before : ∀ i, ∀ j < lead i, row i j = 0

namespace Staircase

theorem sum_mul_update (row z : Fin n → ℚ) (a : Fin n) (v : ℚ) :
    ∑ j, row j * Function.update z a v j = ∑ j, row j * z j + row a * (v - z a) := by
  have hterm : ∀ j, row j * Function.update z a v j = row j * z j + if j = a then row a * (v - z a) else 0 := by
    intro j
    by_cases hj : j = a
    . subst hj
      rw [Function.update_self, if_pos rfl]
      ring
    . rw [Function.update_of_ne hj, if_neg hj, add_zero]
  simp only [hterm, Finset.sum_add_distrib, Finset.sum_ite_eq', Finset.mem_univ, if_true]

theorem tail {row : Fin (k + 1) → Fin n → ℚ} {lead : Fin (k + 1) → Fin n} (h : Staircase row lead) :
    Staircase (row ∘ Fin.succ) (lead ∘ Fin.succ) where
  strictMono := h.strictMono.comp Fin.strictMono_succ
  entry i := h.entry i.succ
  before i := h.before i.succ

theorem exists_null {row : Fin k → Fin n → ℚ} {lead : Fin k → Fin n} (h : Staircase row lead)
    (f : Fin n → ℚ) :
    ∃ z : Fin n → ℚ, (∀ j, (∀ i, lead i ≠ j) → z j = f j) ∧ ∀ i, ∑ j, row i j * z j = 0 := by
  -- By induction on the rows: a row on top of others fixes the value in its first column, where the others
  -- are zero.
  induction k with
  | zero => exact ⟨f, fun _ _ => rfl, fun i => i.elim0⟩
  | succ k ih =>
    obtain ⟨z, hfree, hnull⟩ := ih h.tail
    refine ⟨Function.update z (lead 0) (z (lead 0) - (∑ j, row 0 j * z j) / row 0 (lead 0)), ?_, ?_⟩
    . intro j hj
      rw [Function.update_of_ne (Ne.symm (hj 0))]
      exact hfree j fun i => hj i.succ
    . intro i
      rw [sum_mul_update]
      cases i using Fin.cases with
      | zero =>
        have hentry := h.entry 0
        field_simp
        ring
      | succ i =>
        rw [h.before i.succ _ (h.strictMono (Fin.succ_pos i)), zero_mul, add_zero]
        exact hnull i

variable {row : Fin k → Fin n → ℚ} {lead : Fin k → Fin n} {z : Fin n → ℚ}

theorem eq_zero (h : Staircase row lead) (hnull : ∀ i, ∑ j, row i j * z j = 0) (p : Nat)
    (hfree : ∀ j : Fin n, p ≤ j → (∀ i, lead i ≠ j) → z j = 0) (j : Fin n) (hj : p ≤ j) : z j = 0 := by
  -- From the last column on to the left: the sum of a row has one term left when all values behind its first
  -- column are zero.
  induction hd : n - j.val using Nat.strong_induction_on generalizing j with
  | _ d ih =>
    by_cases hlead : ∃ i, lead i = j
    . obtain ⟨i, rfl⟩ := hlead
      have hsum := hnull i
      rw [Finset.sum_eq_single (lead i)] at hsum
      . exact (mul_eq_zero.mp hsum).resolve_left (h.entry i)
      . intro l _ hl
        cases lt_or_gt_of_ne hl with
        | inl hlt => rw [h.before i l hlt, zero_mul]
        | inr hgt =>
          have hval : (lead i).val < l.val := hgt
          rw [ih (n - l.val) (by omega) l (by omega) rfl, mul_zero]
      . intro hmem
        exact absurd (Finset.mem_univ _) hmem
    . exact hfree j hj fun i hi => hlead ⟨i, hi⟩

end Staircase

end RowSweep
