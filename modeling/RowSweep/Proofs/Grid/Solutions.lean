import RowSweep.Proofs.Binary64.Value
import RowSweep.Proofs.Multipliers.Exact
import RowSweep.Proofs.RowOrder

/-!
This module contains the rational solutions of the system in an augmented grid, and the changes to a grid that keep
them: rows in another order, and a row replaced by a combination in which it counts.
-/

namespace RowSweep

namespace Row

def dot (row : Row n) (z : Fin n → ℚ) : ℚ :=
  ∑ j : Fin n, row[j].toRat * z j

theorem IsInteger.toRat_eq {row : Row n} (h : row.IsInteger) (j : Fin n) : row[j].toRat = row[j].toInt :=
  Binary64.toRat_of_integer? (h.integer? j)

theorem IsCombination.dot_eq_zero_iff {row upper lower : Row n} (h : row.IsCombination upper lower)
    (hupper : upper.IsInteger) (hlower : lower.IsInteger) {z : Fin n → ℚ} (hz : lower.dot z = 0) :
    row.dot z = 0 ↔ upper.dot z = 0 := by
  obtain ⟨t, w, d, ht, hd, hcells⟩ := h.combination
  have hdot : row.dot z * d = upper.dot z * t + lower.dot z * w := by
    unfold dot
    rw [Finset.sum_mul, Finset.sum_mul, Finset.sum_mul, ← Finset.sum_add_distrib]
    apply Finset.sum_congr rfl
    intro j _
    have hj : (row[j].toInt : ℚ) * d = upper[j].toInt * t + lower[j].toInt * w := by
      exact_mod_cast hcells j
    rw [h.integer.toRat_eq, hupper.toRat_eq, hlower.toRat_eq]
    linear_combination z j * hj
  have htq : (t : ℚ) ≠ 0 := Int.cast_ne_zero.mpr ht
  have hdq : (d : ℚ) ≠ 0 := Int.cast_ne_zero.mpr hd
  rw [hz, zero_mul, add_zero] at hdot
  rw [← mul_eq_zero_iff_right hdq, hdot, mul_eq_zero_iff_right htq]

end Row

namespace Grid

def IsInteger (g : Grid m n) : Prop :=
  ∀ i : Fin m, Row.IsInteger g[i]

instance (g : Grid m n) : Decidable g.IsInteger :=
  inferInstanceAs (Decidable (∀ i : Fin m, Row.IsInteger g[i]))

def Annihilates (g : Grid m n) (z : Fin n → ℚ) : Prop :=
  ∀ i : Fin m, Row.dot g[i] z = 0

def solutions (g : Grid m (n + 1)) : Set (Fin n → ℚ) :=
  {x | ∀ i : Fin m, ∑ j : Fin n, g[i][j.castSucc].toRat * x j = (Row.constant g[i]).toRat}

def IsBasicSolution (g : Grid m (n + 1)) (pivots : List Nat) (x : Fin n → ℚ) : Prop :=
  x ∈ g.solutions ∧ ∀ j : Fin n, j.val ∉ pivots → x j = 0

theorem mem_solutions_iff {g : Grid m (n + 1)} {x : Fin n → ℚ} :
    x ∈ g.solutions ↔ g.Annihilates (Fin.snoc x (-1)) := by
  apply forall_congr'
  intro i
  have hconstant : Row.constant g[i] = g[i][Fin.last n] := rfl
  unfold Row.dot
  rw [Fin.sum_univ_castSucc, hconstant]
  simp only [Fin.snoc_castSucc, Fin.snoc_last]
  rw [mul_neg_one, add_neg_eq_zero]

theorem mem_solutions_iff_of_mem {g : Grid m (n + 1)} {x y : Fin n → ℚ} (hx : x ∈ g.solutions) :
    y ∈ g.solutions ↔ g.Annihilates (Fin.snoc (fun j => y j - x j) 0) := by
  apply forall_congr'
  intro i
  unfold Row.dot
  rw [Fin.sum_univ_castSucc]
  simp only [Fin.snoc_castSucc, Fin.snoc_last, mul_sub, mul_zero, add_zero, Finset.sum_sub_distrib]
  rw [hx i, sub_eq_zero]

theorem solutions_congr {g g' : Grid m (n + 1)} (h : ∀ z, g.Annihilates z ↔ g'.Annihilates z) :
    g.solutions = g'.solutions := by
  ext x
  rw [mem_solutions_iff, mem_solutions_iff, h]

theorem isInteger_of_perm {g g' : Grid m n} (hperm : g.Perm g') (h : g.IsInteger) : g'.IsInteger :=
  forall_row_of_perm hperm (P := Row.IsInteger) h

theorem annihilates_of_perm {g g' : Grid m n} (hperm : g.Perm g') (z : Fin n → ℚ) :
    g.Annihilates z ↔ g'.Annihilates z :=
  ⟨forall_row_of_perm hperm (P := fun row : Row n => row.dot z = 0),
    forall_row_of_perm hperm.symm (P := fun row : Row n => row.dot z = 0)⟩

theorem forall_row_set {g : Grid m n} {row : Row n} {P : Row n → Prop} (hr : r < m) :
    (∀ i : Fin m, P (g.set r row)[i]) ↔ P row ∧ ∀ i : Fin m, i.val ≠ r → P g[i] := by
  simp only [getElem_fin, Vector.getElem_set]
  constructor
  . intro h
    refine ⟨by simpa using h ⟨r, hr⟩, ?_⟩
    intro i hi
    simpa [Ne.symm hi] using h i
  . intro h i
    split
    . exact h.left
    next hi => exact h.right i (Ne.symm hi)

theorem isInteger_set {g : Grid m n} {row : Row n} (hr : r < m) (hg : g.IsInteger) (hrow : row.IsInteger) :
    IsInteger (g.set r row) :=
  (forall_row_set hr).mpr ⟨hrow, fun i _ => hg i⟩

theorem annihilates_set {g : Grid m n} {row : Row n} (hr : r < m) (hr1 : r + 1 < m) (hg : g.IsInteger)
    (hrow : row.IsCombination g[r] g[r + 1]) (z : Fin n → ℚ) :
    Annihilates (g.set r row) z ↔ g.Annihilates z := by
  have hne : r + 1 ≠ r := Nat.succ_ne_self r
  unfold Annihilates
  rw [forall_row_set (P := fun row : Row n => row.dot z = 0) hr]
  constructor
  . intro h i
    by_cases hi : i.val = r
    . have hlower : Row.dot g[r + 1] z = 0 := h.right ⟨r + 1, hr1⟩ hne
      have hupper := (hrow.dot_eq_zero_iff (hg ⟨r, hr⟩) (hg ⟨r + 1, hr1⟩) hlower).mp h.left
      obtain rfl : i = ⟨r, hr⟩ := Fin.ext hi
      exact hupper
    . exact h.right i hi
  . intro h
    refine ⟨?_, fun i _ => h i⟩
    exact (hrow.dot_eq_zero_iff (hg ⟨r, hr⟩) (hg ⟨r + 1, hr1⟩) (h ⟨r + 1, hr1⟩)).mpr (h ⟨r, hr⟩)

end Grid

end RowSweep
