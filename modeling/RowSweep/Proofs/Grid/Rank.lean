import RowSweep.Proofs.Grid.Solutions

/-!
This module contains the rational dependencies among the coefficient columns of a grid. Null vectors tell which
columns depend on earlier ones, and the rank is the number of the others.
-/

namespace RowSweep

theorem range_eq_insert_last {V : Type} (v : Fin (n + 1) → V) :
    Set.range v = insert (v (Fin.last n)) (v '' Set.Iio (Fin.last n)) := by
  have huniv : insert (Fin.last n) (Set.Iio (Fin.last n)) = Set.univ := by
    ext j
    simp only [Set.mem_insert_iff, Set.mem_Iio, Set.mem_univ, iff_true]
    exact (Fin.le_last j).eq_or_lt
  rw [← Set.image_insert_eq, huniv, Set.image_univ]

theorem image_Iio_last {V : Type} (v : Fin (n + 1) → V) :
    v '' Set.Iio (Fin.last n) = Set.range (v ∘ Fin.castSucc) := by
  rw [Set.range_comp, Fin.range_castSucc]
  rfl

theorem finrank_span_range {V : Type} [AddCommGroup V] [Module ℚ V] [Module.Finite ℚ V] (v : Fin n → V)
    (P : Fin n → Prop) [DecidablePred P]
    (hP : ∀ c, P c ↔ v c ∉ Submodule.span ℚ (v '' Set.Iio c)) :
    Module.finrank ℚ (Submodule.span ℚ (Set.range v)) = ∑ c, if P c then 1 else 0 := by
  -- Going through the vectors in order, each one that is not in the span of those before it adds one to the
  -- rank.
  induction n with
  | zero => simp
  | succ n ih =>
    have hinit : ∀ c, P (Fin.castSucc c) ↔
        (v ∘ Fin.castSucc) c ∉ Submodule.span ℚ ((v ∘ Fin.castSucc) '' Set.Iio c) := by
      intro c
      rw [Set.image_comp, Fin.image_castSucc_Iio]
      exact hP c.castSucc
    have ih := ih (v ∘ Fin.castSucc) (P ∘ Fin.castSucc) hinit
    rw [← image_Iio_last] at ih
    have hlast := hP (Fin.last n)
    rw [Fin.sum_univ_castSucc, range_eq_insert_last]
    by_cases hspan : v (Fin.last n) ∈ Submodule.span ℚ (v '' Set.Iio (Fin.last n))
    . rw [Submodule.span_insert_eq_span hspan, ih, if_neg (fun h => hlast.mp h hspan), add_zero]
      rfl
    . rw [Submodule.span_insert, sup_comm, Submodule.finrank_sup_span_singleton hspan, ih,
        if_pos (hlast.mpr hspan)]
      rfl

namespace Grid

def column (g : Grid m (n + 1)) (c : Fin n) : Fin m → ℚ :=
  fun i => g[i][c.castSucc].toRat

def DependsOnEarlier (g : Grid m (n + 1)) (c : Fin n) : Prop :=
  g.column c ∈ Submodule.span ℚ (g.column '' Set.Iio c)

noncomputable def rank (g : Grid m (n + 1)) : Nat :=
  Matrix.rank fun (i : Fin m) (j : Fin n) => g[i][j.castSucc].toRat

variable {g : Grid m (n + 1)}

theorem rank_eq_sum (P : Fin n → Prop) [DecidablePred P] (hP : ∀ c, P c ↔ ¬ g.DependsOnEarlier c) :
    g.rank = ∑ c, if P c then 1 else 0 := by
  rw [← finrank_span_range g.column P hP]
  exact Matrix.rank_eq_finrank_span_cols _

theorem dot_eq_Iio (row : Row (n + 1)) (c : Fin n) {z : Fin (n + 1) → ℚ} (hz : ∀ j, c.castSucc < j → z j = 0) :
    row.dot z = (∑ j ∈ Finset.Iio c, row[j.castSucc].toRat * z j.castSucc) +
      row[c.castSucc].toRat * z c.castSucc := by
  have hzero : ∀ j ∈ Finset.univ, j ∉ Finset.Iic c.castSucc → row[j].toRat * z j = 0 := by
    intro j _ hj
    rw [Finset.mem_Iic, not_le] at hj
    rw [hz j hj, mul_zero]
  unfold Row.dot
  rw [← Finset.sum_subset (Finset.subset_univ _) hzero, ← Finset.Iio_insert, Finset.sum_insert (by simp),
    add_comm, Fin.sum_Iio_castSucc]

theorem dependsOnEarlier_iff {c : Fin n} :
    g.DependsOnEarlier c ↔
      ∃ z : Fin (n + 1) → ℚ, g.Annihilates z ∧ z c.castSucc ≠ 0 ∧ ∀ j, c.castSucc < j → z j = 0 := by
  -- A column that depends on earlier ones makes a null vector with its last entry there, and the other way
  -- round.
  unfold DependsOnEarlier
  rw [← Finset.coe_Iio, Submodule.mem_span_image_finset_iff_exists_fun']
  constructor
  . intro h
    obtain ⟨w, hw⟩ := h
    let z : Fin (n + 1) → ℚ := Fin.snoc (fun j => if j < c then w j else if j = c then -1 else 0) 0
    have hlater : ∀ j, c.castSucc < j → z j = 0 := by
      intro j hj
      cases j using Fin.lastCases with
      | last => simp [z]
      | cast j =>
        have hcj : c < j := hj
        simp [z, not_lt_of_gt hcj, ne_of_gt hcj]
    have hentry : z c.castSucc = -1 := by simp [z]
    refine ⟨z, ?_, by simp [hentry], hlater⟩
    intro i
    have hsum : ∑ j ∈ Finset.Iio c, g[i][j.castSucc].toRat * z j.castSucc = g[i][c.castSucc].toRat := by
      have hi := congrFun hw i
      rw [Finset.sum_apply] at hi
      refine Eq.trans (Finset.sum_congr rfl ?_) hi
      intro j hj
      have hcj : j < c := Finset.mem_Iio.mp hj
      simp [z, hcj, column, mul_comm]
    rw [dot_eq_Iio _ c hlater, hsum, hentry]
    ring
  . intro h
    obtain ⟨z, hnull, hentry, hlater⟩ := h
    refine ⟨fun j => -z j.castSucc / z c.castSucc, ?_⟩
    funext i
    have hi := hnull i
    rw [dot_eq_Iio _ c hlater] at hi
    rw [Finset.sum_apply]
    have hterm : ∀ j ∈ Finset.Iio c, ((-z j.castSucc / z c.castSucc) • g.column j) i =
        g[i][j.castSucc].toRat * z j.castSucc * (-1 / z c.castSucc) := by
      intro j _
      simp only [Pi.smul_apply, smul_eq_mul, column]
      ring
    rw [Finset.sum_congr rfl hterm, ← Finset.sum_mul]
    have hsum : ∑ j ∈ Finset.Iio c, g[i][j.castSucc].toRat * z j.castSucc =
        -(g[i][c.castSucc].toRat * z c.castSucc) := by linarith
    rw [hsum]
    unfold column
    field_simp

theorem dependsOnEarlier_congr {g' : Grid k (n + 1)} (h : ∀ z, g.Annihilates z ↔ g'.Annihilates z) (c : Fin n) :
    g.DependsOnEarlier c ↔ g'.DependsOnEarlier c := by
  simp only [dependsOnEarlier_iff, h]

open Classical in
theorem rank_congr {g' : Grid k (n + 1)} (h : ∀ z, g.Annihilates z ↔ g'.Annihilates z) : g.rank = g'.rank := by
  rw [rank_eq_sum (fun c => ¬ g.DependsOnEarlier c) (fun _ => Iff.rfl),
    rank_eq_sum (fun c => ¬ g.DependsOnEarlier c) (fun c => not_congr (dependsOnEarlier_congr h c))]

end Grid

end RowSweep
