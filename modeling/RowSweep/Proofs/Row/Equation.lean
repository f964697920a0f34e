import RowSweep.BackSubstitution
import RowSweep.Residual
import RowSweep.Proofs.Summation

/-!
This module contains what an equation says about integers in place of its unknowns. As long as the magnitudes that
meet in it stay in the exact range, neither its residual nor the unknown that is read from it is rounded.
-/

namespace RowSweep

open Binary64

attribute [local irreducible] unitsPerOne rangeEnd

theorem Binary64.integer?_foldl {f : Binary64 → α → Binary64} {term : α → Int} {as : List α}
    (hstep : ∀ v i, integer? v = some i → ∀ a ∈ as, (i + term a).natAbs ≤ 2 ^ 53 →
      integer? (f v a) = some (i + term a))
    (hv : integer? v = some i) (hle : i.natAbs + (as.map fun a => (term a).natAbs).sum ≤ 2 ^ 53) :
    integer? (as.foldl f v) = some (i + (as.map term).sum) := by
  -- A fold whose steps each add an integer adds all of them, because no sum on the way can leave the exact
  -- range.
  induction as generalizing v i with
  | nil => simpa using hv
  | cons a as ih =>
    rw [List.map_cons, List.sum_cons] at hle ⊢
    rw [List.foldl_cons, ← Int.add_assoc]
    apply ih
    . exact fun v i hv b hb => hstep v i hv b (List.mem_cons_of_mem a hb)
    . exact hstep v i hv a List.mem_cons_self (by omega)
    . omega

theorem sum_map_filter [AddCommMonoid β] (as : List α) (p : α → Prop) [DecidablePred p] (f : α → β) :
    ((as.filter p).map f).sum = (as.map fun a => if p a then f a else 0).sum := by
  induction as with
  | nil => rfl
  | cons a as ih => by_cases h : p a <;> simp [h, ih]

namespace Row

def weight (row : Row (n + 1)) (x : Fin n → Int) : Nat :=
  row.constant.toInt.natAbs + ∑ j : Fin n, row[j.castSucc].toInt.natAbs * (x j).natAbs

structure Balances (row : Row (n + 1)) (x : Fin n → Int) : Prop where
  integer : row.IsInteger
  equation : ∑ j : Fin n, row[j.castSucc].toInt * x j = row.constant.toInt
  weight_le : row.weight x ≤ 2 ^ 53

namespace Balances

variable {row : Row (n + 1)} {x : Fin n → Int} (h : row.Balances x)

include h

theorem integer?_constant : row.constant.integer? = some row.constant.toInt :=
  h.integer.integer? (Fin.last n)

theorem natAbs_mul_le (j : Fin n) : (x j * row[j.castSucc].toInt).natAbs ≤ 2 ^ 53 := by
  have hterm := Finset.single_le_sum (f := fun j : Fin n => row[j.castSucc].toInt.natAbs * (x j).natAbs)
    (fun _ _ => Nat.zero_le _) (Finset.mem_univ j)
  have hweight := h.weight_le
  rw [Int.natAbs_mul, Nat.mul_comm]
  unfold weight at hweight
  omega

theorem integer?_mul {v : Row n} (j : Fin n) (hv : v[j].integer? = some (x j)) :
    (v[j] * row[j.castSucc]).integer? = some (x j * row[j.castSucc].toInt) :=
  Binary64.integer?_mul hv (h.integer.integer? j.castSucc) (h.natAbs_mul_le j)

theorem sum_natAbs_le {term : Fin n → Int}
    (hterm : ∀ j, term j = 0 ∨ (term j).natAbs = (x j * row[j.castSucc].toInt).natAbs) :
    row.constant.toInt.natAbs + ((List.finRange n).map fun j => (term j).natAbs).sum ≤ 2 ^ 53 := by
  rw [← Fin.sum_univ_def]
  refine le_trans (Nat.add_le_add_left (Finset.sum_le_sum fun j _ => ?_) _) h.weight_le
  cases hterm j with
  | inl hzero =>
    rw [hzero]
    exact Nat.zero_le _
  | inr heq =>
    rw [heq, Int.natAbs_mul, Nat.mul_comm]

theorem integer?_div {c : Fin n} (entry : row[c.castSucc].isZero = false) {y : Binary64}
    (hy : y.integer? = some (x c * row[c.castSucc].toInt)) : (y / row[c.castSucc]).integer? = some (x c) := by
  have hne : row[c.castSucc].toInt ≠ 0 := by
    intro hzero
    rw [(h.integer.isZero_iff c.castSucc).mpr hzero] at entry
    cases entry
  have hle := h.natAbs_mul_le c
  rw [Int.natAbs_mul] at hle
  refine Binary64.integer?_div hy (h.integer.integer? c.castSucc) hne (le_trans ?_ hle)
  exact Nat.le_mul_of_pos_right _ (Int.natAbs_pos.mpr hne)

theorem isZero_residual {v : Row n} (hv : ∀ j : Fin n, v[j].integer? = some (x j)) :
    (row.residual v).isZero = true := by
  have hsum : (row.residual v).integer? =
      some (row.constant.toInt + ((List.finRange n).map fun j => -(x j * row[j.castSucc].toInt)).sum) := by
    apply integer?_foldl
    . intro rest i hrest j _ hle
      exact integer?_add hrest (integer?_neg (h.integer?_mul j (hv j))) hle
    . exact h.integer?_constant
    . exact h.sum_natAbs_le fun j => Or.inr (Int.natAbs_neg _)
  rw [isZero_iff_of_integer? hsum, ← Fin.sum_univ_def, Finset.sum_neg_distrib, ← h.equation, ← sub_eq_add_neg,
    sub_eq_zero]
  exact Finset.sum_congr rfl fun j _ => Int.mul_comm _ _

/-!
### The first unknown of an equation

Where no unknown before `c` counts, unknown `c` follows from those behind it.
-/

section first

variable {c : Fin n} (before : ∀ j < c, row[j.castSucc].isZero = true)
variable (entry : row[c.castSucc].isZero = false)

include before

theorem constant_eq {p : Fin n → Prop} [DecidablePred p] (hp : ∀ j, c < j → p j ∨ x j = 0) :
    row.constant.toInt =
      x c * row[c.castSucc].toInt + ∑ j : Fin n, if c < j ∧ p j then x j * row[j.castSucc].toInt else 0 := by
  rw [← h.equation, ← Finset.add_sum_erase _ _ (Finset.mem_univ c), Int.mul_comm]
  congr 1
  rw [← Finset.add_sum_erase Finset.univ _ (Finset.mem_univ c), if_neg (by simp), zero_add]
  apply Finset.sum_congr rfl
  intro j hj
  have hne := Finset.ne_of_mem_erase hj
  split
  next => exact Int.mul_comm _ _
  next hnot =>
    rw [not_and_or] at hnot
    by_cases hlt : c < j
    . rw [(hp j hlt).resolve_left (hnot.resolve_left (not_not.mpr hlt)), mul_zero]
    . rw [(h.integer.isZero_iff j.castSucc).mp (before j (by omega)), zero_mul]

include entry

theorem integer?_of_tailSum {products : Summation} (hadds : products.AddsUp) {v : Row n}
    (hv : ∀ j, c < j → v[j].integer? = some (x j)) :
    ((row.constant - row.tailSum products v c) / row[c.castSucc]).integer? = some (x c) := by
  have hsum : (row.tailSum products v c).integer? =
      some ((List.finRange n).map fun j => if c < j then x j * row[j.castSucc].toInt else 0).sum := by
    rw [← sum_map_filter]
    apply hadds.integer?_map
    . exact fun j hj => h.integer?_mul j (hv j (by simpa using hj))
    . rw [sum_map_filter]
      have hterm : ∀ j, (if c < j then x j * row[j.castSucc].toInt else 0) = 0 ∨
          (if c < j then x j * row[j.castSucc].toInt else 0).natAbs = (x j * row[j.castSucc].toInt).natAbs := by
        intro j
        split
        . exact Or.inr rfl
        . exact Or.inl rfl
      have hle := h.sum_natAbs_le hterm
      simp only [apply_ite Int.natAbs, Int.natAbs_zero] at hle
      exact Nat.le_of_add_left_le hle
  have hconstant := h.constant_eq before (p := fun _ => True) (fun _ _ => Or.inl trivial)
  simp only [and_true] at hconstant
  rw [← Fin.sum_univ_def] at hsum
  have hrest : row.constant.toInt + -(∑ j : Fin n, if c < j then x j * row[j.castSucc].toInt else 0) =
      x c * row[c.castSucc].toInt := by
    rw [hconstant]
    ring
  apply h.integer?_div entry
  rw [← hrest]
  apply integer?_add h.integer?_constant (integer?_neg hsum)
  rw [hrest]
  exact h.natAbs_mul_le c

theorem integer?_of_reduce (basis : Basis) {v : Row n}
    (hv : ∀ j : Fin n, c < j → basis.has j.val = true → v[j].integer? = some (x j))
    (hfree : ∀ j : Fin n, basis.has j.val = false → x j = 0) :
    (basis.reduce row v c / row[c.castSucc]).integer? = some (x c) := by
  have hsum : (basis.reduce row v c).integer? = some (row.constant.toInt +
      ((List.finRange n).map fun j =>
        -if c < j ∧ basis.has j.val = true then x j * row[j.castSucc].toInt else 0).sum) := by
    apply integer?_foldl
    . intro value i hi j _ hle
      split
      next hlater =>
        rw [if_pos hlater] at hle
        exact integer?_add hi (integer?_neg (h.integer?_mul j (hv j hlater.left hlater.right))) hle
      next => rwa [Int.neg_zero, Int.add_zero]
    . exact h.integer?_constant
    . refine h.sum_natAbs_le fun j => ?_
      split
      . exact Or.inr (Int.natAbs_neg _)
      . exact Or.inl Int.neg_zero
  have hconstant := h.constant_eq before (p := fun j => basis.has j.val = true) (by
    intro j _
    cases hhas : basis.has j.val with
    | true => exact Or.inl rfl
    | false => exact Or.inr (hfree j hhas))
  apply h.integer?_div entry
  rw [hsum, ← Fin.sum_univ_def, Finset.sum_neg_distrib, hconstant]
  congr 1
  ring

end first

end Balances

end Row

end RowSweep
