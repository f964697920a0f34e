import RowSweep.Proofs.Row.Equation
import RowSweep.Proofs.Solver.Basis

/-!
This module contains the reading of an integer solution off a reduced grid. Both ways to do so find the same solution
without rounding: the one with zeros for the unknowns that have no pivot.
-/

namespace RowSweep

open Binary64

attribute [local irreducible] unitsPerOne rangeEnd

theorem mem_of_lt_of_pairwise [LinearOrder γ] (key : β → γ) {done rest : List β}
    (hsorted : (done ++ b :: rest).Pairwise fun b b' => key b' < key b) (hmem : b' ∈ done ++ b :: rest)
    (hlt : key b < key b') : b' ∈ done := by
  -- In a decreasing list the larger items stand before an item.
  obtain ⟨-, hlater, -⟩ := List.pairwise_append.mp hsorted
  rw [List.mem_append, List.mem_cons] at hmem
  cases hmem with
  | inl hdone => exact hdone
  | inr hmem =>
    cases hmem with
    | inl heq => exact absurd (congrArg key heq) (ne_of_gt hlt)
    | inr hrest => exact absurd hlt (lt_asymm ((List.pairwise_cons.mp hlater).left b' hrest))

theorem integer?_set {v : Row n} {c : Fin n} {y : Binary64} {x : Fin n → Int} (hy : y.integer? = some (x c))
    (j : Fin n) (hj : j ≠ c → v[j].integer? = some (x j)) : (v.set c y c.isLt)[j].integer? = some (x j) := by
  by_cases heq : j = c
  . subst heq
    rw [getElem_fin, Vector.getElem_set_self]
    exact hy
  . rw [getElem_fin, Vector.getElem_set_ne _ _ (fun h => heq (Fin.ext h.symm))]
    exact hj heq

namespace Grid

def Balances (g : Grid m (n + 1)) (x : Fin n → Int) : Prop :=
  ∀ i : Fin m, Row.Balances g[i] x

namespace IsReduced

variable {g : Grid n (n + 1)} {pivots : List Nat} {x : Fin n → Int}

theorem exists_rowOf_eq_pivotRow (h : g.IsReduced pivots) (hfull : g.hasFullPivots (Nat.le_refl n) = true)
    (k : Fin n) : ∃ i, h.unknownOf i = k ∧ h.rowOf i = pivotRow (Nat.le_refl n) k := by
  -- With a pivot for each unknown they are all where back substitution looks for them.
  have hall := h.hasFullPivots_iff.mp hfull
  have hrange : pivots = List.range n :=
    eq_range_of_pairwise h.sorted fun c => ⟨h.lt c, fun hc => hall ⟨c, hc⟩⟩
  obtain ⟨i, hi⟩ := h.mem_iff.mp (hall k)
  have hval : pivots[i.val] = k := congrArg Fin.val hi
  simp only [hrange, List.getElem_range] at hval
  refine ⟨i, hi, ?_⟩
  rw [Fin.ext_iff, h.rowOf_val, hval]
  rfl

theorem exists_substitute (h : g.IsReduced pivots) (hfull : g.hasFullPivots (Nat.le_refl n) = true)
    {products : Summation} (hadds : products.AddsUp) (hx : g.Balances x) {v : Row n} {k : Fin n}
    (hv : ∀ j, k < j → v[j].integer? = some (x j)) :
    ∃ y, g.substitute products (Nat.le_refl n) v k = .ok (v.set k y k.isLt) ∧ y.integer? = some (x k) := by
  obtain ⟨i, rfl, hrow⟩ := h.exists_rowOf_eq_pivotRow hfull k
  have hpivot := h.isZero_pivot i
  have hvalue := (hx (h.rowOf i)).integer?_of_tailSum (h.isZero_before i) hpivot hadds hv
  rw [hrow] at hpivot hvalue
  unfold substitute
  refine ⟨_, ?_, hvalue⟩
  dsimp only
  rw [hpivot, if_neg Bool.false_ne_true]

theorem exists_backSubstitute (h : g.IsReduced pivots) (hfull : g.hasFullPivots (Nat.le_refl n) = true)
    {products : Summation} (hadds : products.AddsUp) (hx : g.Balances x) :
    ∃ v, g.backSubstitute products (Nat.le_refl n) = .ok v ∧ ∀ j : Fin n, v[j].integer? = some (x j) := by
  have hsorted : (List.finRange n).reverse.Pairwise fun k k' => k' < k :=
    List.pairwise_reverse.mpr (List.pairwise_lt_finRange n)
  have hfold := foldlM_of_step (List.finRange n).reverse (f := g.substitute products (Nat.le_refl n))
    (P := fun done v => ∀ j ∈ done, v[j].integer? = some (x j)) (a := Vector.replicate n .zero) ?_ (by simp)
  . obtain ⟨v, hok, hv⟩ := hfold
    exact ⟨v, hok, fun j => hv j (by simp)⟩
  . intro done k rest hbs v hv
    have hlater : ∀ j, k < j → v[j].integer? = some (x j) := by
      intro j hlt
      rw [hbs] at hsorted
      exact hv j (mem_of_lt_of_pairwise id hsorted (by simp [← hbs]) hlt)
    obtain ⟨y, hok, hy⟩ := h.exists_substitute hfull hadds hx hlater
    refine ⟨_, hok, ?_⟩
    intro j hj
    apply integer?_set hy
    intro hne
    exact hv j ((List.mem_append.mp hj).resolve_right fun hk => hne (List.mem_singleton.mp hk))

theorem exists_basis_substitute (h : g.IsReduced pivots) (hx : g.Balances x)
    (hfree : ∀ j : Fin n, j.val ∉ pivots → x j = 0) {v : Row n} (i : Fin pivots.length)
    (hv : ∀ j : Fin n, h.unknownOf i < j → j.val ∈ pivots → v[j].integer? = some (x j)) :
    ∃ y, (Basis.ofGrid g).substitute g v (h.entryOf i) = .ok (v.set (h.unknownOf i) y (h.unknownOf i).isLt) ∧
      y.integer? = some (x (h.unknownOf i)) := by
  have hpivot := h.isZero_pivot i
  have hvalue := (hx (h.rowOf i)).integer?_of_reduce (h.isZero_before i) hpivot (Basis.ofGrid g)
    (fun j hlt hhas => hv j hlt ((h.has_ofGrid j).mp hhas))
    (fun j hhas => hfree j (by rw [← h.has_ofGrid, hhas]; exact Bool.false_ne_true))
  refine ⟨_, ?_, hvalue⟩
  unfold entryOf
  rw [Basis.substitute_of_place, hpivot]
  rfl

theorem exists_particularSolution (h : g.IsReduced pivots) (hx : g.Balances x)
    (hfree : ∀ j : Fin n, j.val ∉ pivots → x j = 0) :
    ∃ v, (Basis.ofGrid g).particularSolution g = .ok v ∧ ∀ j : Fin n, v[j].integer? = some (x j) := by
  have hsorted : (List.reverse (Basis.ofGrid g)).Pairwise fun e f => f.unknown < e.unknown :=
    List.pairwise_reverse.mpr (Basis.isSorted_ofGrid g)
  have hfold := foldlM_of_step (List.reverse (Basis.ofGrid g)) (f := (Basis.ofGrid g).substitute g)
    (P := fun done v => ∀ j : Fin n, (∃ e ∈ done, e.unknown = j) ∨ x j = 0 → v[j].integer? = some (x j))
    (a := Vector.replicate n .zero) ?_ ?_
  . obtain ⟨v, hok, hv⟩ := hfold
    refine ⟨v, hok, ?_⟩
    intro j
    apply hv
    by_cases hj : j.val ∈ pivots
    . obtain ⟨e, hmem, hunknown⟩ := Basis.has_iff.mp ((h.has_ofGrid j).mpr hj)
      exact Or.inl ⟨e, List.mem_reverse.mpr hmem, hunknown⟩
    . exact Or.inr (hfree j hj)
  . intro done e rest hbs v hv
    have hmem : e ∈ Basis.ofGrid g := by
      rw [← List.mem_reverse, hbs]
      simp
    obtain ⟨i, rfl⟩ := h.mem_ofGrid.mp hmem
    have hlater : ∀ j : Fin n, h.unknownOf i < j → j.val ∈ pivots → v[j].integer? = some (x j) := by
      intro j hlt hj
      obtain ⟨e, hmem, hunknown⟩ := Basis.has_iff.mp ((h.has_ofGrid j).mpr hj)
      refine hv j (Or.inl ⟨e, ?_, hunknown⟩)
      rw [hbs] at hsorted
      apply mem_of_lt_of_pairwise BasisEntry.unknown hsorted
      . rwa [← hbs, List.mem_reverse]
      . rw [hunknown]
        exact Int.ofNat_lt.mpr hlt
    obtain ⟨y, hok, hy⟩ := h.exists_basis_substitute hx hfree i hlater
    refine ⟨_, hok, ?_⟩
    intro j hj
    apply integer?_set hy
    intro hne
    apply hv
    cases hj with
    | inr hzero => exact Or.inr hzero
    | inl hex =>
      obtain ⟨f, hf, hunknown⟩ := hex
      refine Or.inl ⟨f, (List.mem_append.mp hf).resolve_right ?_, hunknown⟩
      intro heq
      rw [List.mem_singleton.mp heq] at hunknown
      exact hne (Fin.ext (Int.ofNat_inj.mp hunknown.symm))
  . intro j hj
    obtain ⟨e, hmem, -⟩ | hzero := hj
    . cases hmem
    . rw [hzero, getElem_fin, Vector.getElem_replicate]
      exact integer?_of_isZero isZero_zero

theorem exists_readSolution (h : g.IsReduced pivots) {products : Summation} (hadds : products.AddsUp)
    (hx : g.Balances x) (hfree : ∀ j : Fin n, j.val ∉ pivots → x j = 0) :
    ∃ v, (Solver.readSolution products g).1 = .ok v ∧ ∀ j : Fin n, v[j].integer? = some (x j) := by
  -- The solution is read off in one way or the other, as the pivots have it.
  cases hfull : g.hasFullPivots (Nat.le_refl n) with
  | true =>
    rw [Solver.readSolution_of_hasFullPivots hfull]
    exact h.exists_backSubstitute hfull hadds hx
  | false =>
    rw [Solver.readSolution_of_not_hasFullPivots hfull]
    exact h.exists_particularSolution hx hfree

end IsReduced

end Grid

end RowSweep
