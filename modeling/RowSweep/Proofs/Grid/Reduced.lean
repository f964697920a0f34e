import RowSweep.Proofs.Grid.Echelon
import RowSweep.Proofs.Grid.Rank
import RowSweep.Proofs.Grid.Staircase

/-!
This module contains what the echelon form of an integer grid tells: which columns depend on earlier ones, the
rank, and whether there is no solution, one or more.
-/

namespace RowSweep.Grid

theorem IsInteger.hasEntry_iff {g : Grid m n} (hg : g.IsInteger) (i : Fin m) (j : Fin n) :
    g.HasEntry i j ↔ g[i][j].toRat ≠ 0 := by
  rw [Grid.hasEntry_iff i.isLt j.isLt, ne_eq, Binary64.toRat_eq_zero ((hg i).isFinite j), Bool.not_eq_true]
  rfl

theorem IsInteger.toRat_eq_zero {g : Grid m n} (hg : g.IsInteger) (i : Fin m) (j : Fin n)
    (h : ¬ g.HasEntry i j) : g[i][j].toRat = 0 := by
  rw [hg.hasEntry_iff, not_not] at h
  exact h

structure IsReduced (g : Grid n (n + 1)) (pivots : List Nat) : Prop where
  integer : g.IsInteger
  echelon : g.IsEchelon pivots
  sorted : pivots.Pairwise (· < ·)
  lt : ∀ c ∈ pivots, c < n
  length_le : pivots.length ≤ n

namespace IsReduced

variable {g : Grid n (n + 1)} {pivots : List Nat}

def rowOf (h : g.IsReduced pivots) (i : Fin pivots.length) : Fin n :=
  (i.castLE h.length_le).rev

def unknownOf (h : g.IsReduced pivots) (i : Fin pivots.length) : Fin n :=
  ⟨pivots.get i, h.lt _ (pivots.get_mem i)⟩

variable (h : g.IsReduced pivots)

include h

theorem rowOf_val (i : Fin pivots.length) : (h.rowOf i).val = n - 1 - i := by
  unfold rowOf
  rw [Fin.val_rev, Fin.val_castLE]
  omega

theorem exists_rowOf (r : Fin n) (hr : n ≤ r + pivots.length) : ∃ i, h.rowOf i = r := by
  have hlen := h.length_le
  refine ⟨⟨n - 1 - r, by omega⟩, ?_⟩
  rw [Fin.ext_iff, h.rowOf_val]
  simp only
  omega

theorem staircase :
    Staircase (fun i j => g[h.rowOf i][j].toRat) (fun i => (h.unknownOf i).castSucc) := by
  constructor
  case strictMono =>
    intro i j hij
    exact List.pairwise_iff_getElem.mp h.sorted i j i.isLt j.isLt hij
  case entry =>
    intro i
    rw [← h.integer.hasEntry_iff, h.rowOf_val]
    exact h.echelon.pivot i i.isLt
  case before =>
    intro i j hj
    apply h.integer.toRat_eq_zero
    rw [h.rowOf_val]
    exact h.echelon.before i i.isLt j hj

theorem dot_above {r : Fin n} (hr : r + pivots.length < n) (z : Fin (n + 1) → ℚ) :
    Row.dot g[r] z = (Row.constant g[r]).toRat * z (Fin.last n) := by
  have hconstant : Row.constant g[r] = g[r][Fin.last n] := rfl
  unfold Row.dot
  rw [Fin.sum_univ_castSucc, hconstant, Finset.sum_eq_zero, zero_add]
  intro j _
  have hzero : g[r][j.castSucc].toRat = 0 :=
    h.integer.toRat_eq_zero r j.castSucc (h.echelon.above r hr j j.isLt)
  rw [hzero, zero_mul]

theorem annihilates_iff {z : Fin (n + 1) → ℚ} :
    g.Annihilates z ↔ (∀ i, Row.dot g[h.rowOf i] z = 0) ∧
      ∀ r : Fin n, r + pivots.length < n → (Row.constant g[r]).toRat * z (Fin.last n) = 0 := by
  -- Only the rows of pivots restrict a vector, apart from constants that are left alone in their rows.
  constructor
  . intro hnull
    refine ⟨fun i => hnull (h.rowOf i), ?_⟩
    intro r hr
    rw [← h.dot_above hr]
    exact hnull r
  . intro hnull r
    by_cases hr : r + pivots.length < n
    . rw [h.dot_above hr]
      exact hnull.right r hr
    . obtain ⟨i, rfl⟩ := h.exists_rowOf r (by omega)
      exact hnull.left i

theorem mem_iff {c : Fin n} : c.val ∈ pivots ↔ ∃ i, h.unknownOf i = c := by
  rw [List.mem_iff_get]
  constructor
  . intro hmem
    obtain ⟨i, hi⟩ := hmem
    exact ⟨i, Fin.ext hi⟩
  . intro hex
    obtain ⟨i, rfl⟩ := hex
    exact ⟨i, rfl⟩

theorem unknownOf_injective : Function.Injective h.unknownOf := by
  intro i j hij
  exact h.staircase.strictMono.injective (congrArg Fin.castSucc hij)

theorem ne_last (i : Fin pivots.length) : (h.unknownOf i).castSucc ≠ Fin.last n :=
  ne_of_lt (Fin.castSucc_lt_last _)

theorem exists_annihilates {c : Fin n} (hc : c.val ∉ pivots) :
    ∃ z : Fin (n + 1) → ℚ, g.Annihilates z ∧ z c.castSucc ≠ 0 ∧ ∀ j, c.castSucc < j → z j = 0 := by
  -- A column without a pivot is the last one in some null vector: all free columns but this one are given
  -- zeros.
  have hfreeColumn : ∀ i, (h.unknownOf i).castSucc ≠ c.castSucc :=
    fun i hi => hc (h.mem_iff.mpr ⟨i, Fin.castSucc_injective n hi⟩)
  obtain ⟨z, hfree, hnull⟩ := h.staircase.exists_null (Pi.single c.castSucc 1)
  have hlater : ∀ j, c.castSucc < j → z j = 0 := by
    intro j hj
    apply h.staircase.eq_zero hnull (c + 1)
    . intro l hl hlead
      rw [hfree l hlead]
      apply Pi.single_eq_of_ne
      intro heq
      rw [heq, Fin.val_castSucc] at hl
      omega
    . exact hj
  refine ⟨z, ?_, ?_, hlater⟩
  . rw [h.annihilates_iff]
    refine ⟨hnull, ?_⟩
    intro r _
    rw [hlater _ (Fin.castSucc_lt_last c), mul_zero]
  . rw [hfree _ hfreeColumn, Pi.single_eq_same]
    exact one_ne_zero

theorem dependsOnEarlier_iff (c : Fin n) : g.DependsOnEarlier c ↔ c.val ∉ pivots := by
  rw [Grid.dependsOnEarlier_iff]
  constructor
  . intro hex hmem
    obtain ⟨z, hnull, hentry, hlater⟩ := hex
    obtain ⟨i, rfl⟩ := h.mem_iff.mp hmem
    apply hentry
    apply h.staircase.eq_zero (h.annihilates_iff.mp hnull).left (h.unknownOf i)
    . intro j hj hlead
      exact hlater j (lt_of_le_of_ne hj (hlead i))
    . exact Nat.le_refl _
  . exact h.exists_annihilates

theorem rank_eq : g.rank = pivots.length := by
  have himage : (Finset.univ.filter fun c : Fin n => c.val ∈ pivots) = Finset.univ.image h.unknownOf := by
    ext c
    simp [h.mem_iff]
  rw [Grid.rank_eq_sum (fun c : Fin n => c.val ∈ pivots), ← Finset.card_filter, himage,
    Finset.card_image_of_injective _ h.unknownOf_injective, Finset.card_fin]
  intro c
  rw [h.dependsOnEarlier_iff, not_not]

/-!
### Solutions
-/

theorem hasFullPivots_iff : g.hasFullPivots (Nat.le_refl n) = true ↔ ∀ c : Fin n, c.val ∈ pivots := by
  rw [hasFullPivots_iff_hasEntry]
  have hle := h.length_le
  constructor
  . intro hfull
    have hlen : pivots.length = n := by
      by_contra hne
      have hn : 0 < n := by omega
      have hentry := hfull (n - 1) (by omega)
      rw [Nat.sub_self] at hentry
      exact h.echelon.above 0 (by omega) (n - 1) (by omega) hentry
    intro c
    have hbijective : Function.Bijective h.unknownOf :=
      (Fintype.bijective_iff_injective_and_card _).mpr ⟨h.unknownOf_injective, by simp [hlen]⟩
    exact h.mem_iff.mpr (hbijective.surjective c)
  . intro hall k hk
    have hrange : pivots = List.range n :=
      eq_range_of_pairwise h.sorted fun c => ⟨h.lt c, fun hc => hall ⟨c, hc⟩⟩
    have hentry := h.echelon.pivot k (by rw [hrange, List.length_range]; exact hk)
    simpa [hrange] using hentry

end IsReduced

theorem isBlank_iff {row : Row (n + 1)} :
    row.isBlank = true ↔ ∀ j : Fin n, row[j.castSucc].isZero = true := by
  unfold Row.isBlank
  rw [Nat.all_eq_finRange_all, List.all_eq_true]
  constructor
  . intro h j
    exact h j (List.mem_finRange j)
  . intro h j _
    exact h j

theorem isConsistent_iff {g : Grid m (n + 1)} :
    g.isConsistent = true ↔
      ∀ i : Fin m, Row.isBlank g[i] = true → (Row.constant g[i]).isZero = true := by
  have hrow : ∀ row : Row (n + 1), (!row.isContradictory) = true ↔
      (row.isBlank = true → row.constant.isZero = true) := by
    intro row
    unfold Row.isContradictory
    cases row.isBlank <;> simp
  unfold isConsistent
  rw [Vector.all_eq_true]
  constructor
  . intro h i
    exact (hrow _).mp (h i i.isLt)
  . intro h i hi
    exact (hrow _).mpr (h ⟨i, hi⟩)

theorem solutions_eq_empty {g : Grid m (n + 1)} (hg : g.IsInteger) (h : g.isConsistent = false) :
    g.solutions = ∅ := by
  rw [Set.eq_empty_iff_forall_notMem]
  intro x hx
  rw [← Bool.not_eq_true, isConsistent_iff] at h
  apply h
  intro i hblank
  rw [isBlank_iff] at hblank
  have hi := hx i
  rw [Finset.sum_eq_zero] at hi
  . exact (Binary64.toRat_eq_zero ((hg i).isFinite (Fin.last n))).mp hi.symm
  . intro j _
    rw [(Binary64.toRat_eq_zero ((hg i).isFinite j.castSucc)).mpr (hblank j), zero_mul]

namespace IsReduced

variable {g : Grid n (n + 1)} {pivots : List Nat} (h : g.IsReduced pivots)

include h

theorem constant_eq_zero (hconsistent : g.isConsistent = true) (r : Fin n) (hr : r + pivots.length < n) :
    (Row.constant g[r]).toRat = 0 := by
  rw [isConsistent_iff] at hconsistent
  apply (Binary64.toRat_eq_zero ((h.integer r).isFinite (Fin.last n))).mpr
  apply hconsistent r
  rw [isBlank_iff]
  intro j
  exact (not_hasEntry_castSucc r.isLt j).mp (h.echelon.above r hr j j.isLt)

theorem exists_isBasicSolution (hconsistent : g.isConsistent = true) : ∃ x, g.IsBasicSolution pivots x := by
  -- With zeros for the unknowns without a pivot the others follow.
  obtain ⟨z, hfree, hnull⟩ := h.staircase.exists_null (Fin.snoc 0 (-1))
  have hlast : z (Fin.last n) = -1 := by
    rw [hfree _ h.ne_last, Fin.snoc_last]
  refine ⟨fun j => z j.castSucc, ?_, ?_⟩
  . have hsnoc : (Fin.snoc (fun j => z j.castSucc) (-1) : Fin (n + 1) → ℚ) = z := by
      rw [← hlast]
      exact Fin.snoc_init_self z
    rw [mem_solutions_iff, hsnoc, h.annihilates_iff]
    refine ⟨hnull, ?_⟩
    intro r hr
    rw [h.constant_eq_zero hconsistent r hr, zero_mul]
  . intro j hj
    dsimp only
    rw [hfree _ fun i hi => hj (h.mem_iff.mpr ⟨i, Fin.castSucc_injective n hi⟩), Fin.snoc_castSucc]
    rfl

theorem isBasicSolution_unique (hx : g.IsBasicSolution pivots x) (hy : g.IsBasicSolution pivots y) : y = x := by
  -- Two solutions differ by a null vector, which is zero if it is zero in the columns without a pivot.
  have hnull := (h.annihilates_iff.mp ((mem_solutions_iff_of_mem hx.left).mp hy.left)).left
  funext j
  have hzero := h.staircase.eq_zero hnull 0 ?_ j.castSucc (Nat.zero_le _)
  . rw [Fin.snoc_castSucc] at hzero
    exact sub_eq_zero.mp hzero
  . intro k _ hlead
    cases k using Fin.lastCases with
    | last => rw [Fin.snoc_last]
    | cast k =>
      have hk : k.val ∉ pivots := by
        intro hmem
        obtain ⟨i, hi⟩ := h.mem_iff.mp hmem
        exact hlead i (congrArg Fin.castSucc hi)
      rw [Fin.snoc_castSucc, hx.right k hk, hy.right k hk, sub_zero]

theorem solutions_nonempty (hconsistent : g.isConsistent = true) : g.solutions.Nonempty := by
  obtain ⟨x, hx⟩ := h.exists_isBasicSolution hconsistent
  exact ⟨x, hx.left⟩

theorem solutions_subsingleton (hfull : g.hasFullPivots (Nat.le_refl n) = true) :
    g.solutions.Subsingleton := by
  have hall := h.hasFullPivots_iff.mp hfull
  exact fun y hy x hx => h.isBasicSolution_unique ⟨hx, fun j hj => absurd (hall j) hj⟩
    ⟨hy, fun j hj => absurd (hall j) hj⟩

theorem solutions_nontrivial (hconsistent : g.isConsistent = true)
    (hfull : g.hasFullPivots (Nat.le_refl n) = false) : g.solutions.Nontrivial := by
  -- A column without a pivot gives a null vector of the coefficients, which leads from one solution to
  -- another.
  rw [← Bool.not_eq_true, h.hasFullPivots_iff, not_forall] at hfull
  obtain ⟨c, hc⟩ := hfull
  obtain ⟨z, hnull, hentry, hlater⟩ := h.exists_annihilates hc
  obtain ⟨x, hx⟩ := h.solutions_nonempty hconsistent
  have hsnoc : (Fin.snoc (fun j => x j + z j.castSucc - x j) 0 : Fin (n + 1) → ℚ) = z := by
    simp only [add_sub_cancel_left]
    rw [← hlater _ (Fin.castSucc_lt_last c)]
    exact Fin.snoc_init_self z
  refine ⟨fun j => x j + z j.castSucc, ?_, x, hx, ?_⟩
  . rw [mem_solutions_iff_of_mem hx, hsnoc]
    exact hnull
  . intro heq
    apply hentry
    exact add_eq_left.mp (congrFun heq c)

end IsReduced

end RowSweep.Grid
