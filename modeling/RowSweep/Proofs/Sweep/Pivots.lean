import RowSweep.Proofs.Grid.Echelon
import RowSweep.Proofs.Sweep.Bounds

/-!
This module contains the bookkeeping of pivots. Whatever the rounding does, a nonzero entry of an open row
is carried to the lowest one, a pivot row is not touched again, and a column without a pivot stays zero in
all rows that were open in its pass.
-/

namespace RowSweep

namespace Sweep

variable {settings : SweepSettings} {g : Grid m (n + 1)} {h : n ≤ m}

/-!
### One pass
-/

theorem hasEntry_before (c : Fin n) (hk : k < m) (hs : (before settings g h c k hk).ended = none) :
    (before settings g h c k hk).grid.HasEntry k c ↔
      ∃ r ≤ k, (upTo settings g h c).grid.HasEntry r c := by
  -- After `k` pairs of a pass the nonzero entries of the column above have come down to row `k`.
  induction k with
  | zero =>
    constructor
    . intro hentry
      exact ⟨0, Nat.le_refl 0, hentry⟩
    . intro ⟨r, hr, hentry⟩
      obtain rfl : r = 0 := by omega
      exact hentry
  | succ k ih =>
    have hended : (before settings g h c k (Nat.lt_of_succ_lt hk)).ended = none := ended_of_pairs_succ hk hs
    have ih := ih (by omega) hended
    have hlower : (before settings g h c k (Nat.lt_of_succ_lt hk)).grid[k + 1] = (upTo settings g h c).grid[k + 1] :=
      pairs_getElem_of_lt (by omega) hk (by omega)
    have hstep := (Step.effect_ofPair settings (before settings g h c k (Nat.lt_of_succ_lt hk)).grid c k
      (Nat.lt_of_succ_lt hk) hk).isZero_lower
    rw [Grid.hasEntry_castSucc (by omega)] at ih
    rw [before_succ c hk hended, grid_record, Grid.hasEntry_castSucc hk]
    unfold stepAt
    rw [hstep, Bool.and_eq_false_iff, ih, hlower, ← Grid.hasEntry_castSucc hk]
    constructor
    . intro hentry
      cases hentry with
      | inl hentry =>
        obtain ⟨r, hr, hentry⟩ := hentry
        exact ⟨r, by omega, hentry⟩
      | inr hentry => exact ⟨k + 1, Nat.le_refl _, hentry⟩
    . intro ⟨r, hr, hentry⟩
      cases Nat.eq_or_lt_of_le hr with
      | inl heq =>
        subst heq
        exact Or.inr hentry
      | inr hlt => exact Or.inl ⟨r, by omega, hentry⟩

theorem hasEntry_stepAt (c : Fin n) (hk : k + 1 < m) (hupper : r ≠ k) (hlower : r ≠ k + 1) :
    (stepAt settings g h c k hk).grid.HasEntry r j ↔
      (before settings g h c k (Nat.lt_of_succ_lt hk)).grid.HasEntry r j :=
  Grid.hasEntry_congr fun hr =>
    (Step.effect_ofPair settings _ c k (Nat.lt_of_succ_lt hk) hk).getElem_of_ne hr hupper hlower

theorem hasEntry_lowest (c : Fin n) (hs : (swept settings g h c).ended = none)
    (hk : (upTo settings g h c).openRows = k + 1) :
    (swept settings g h c).grid.HasEntry k c ↔
      ∃ r < (upTo settings g h c).openRows, (upTo settings g h c).grid.HasEntry r c := by
  obtain rfl : (upTo settings g h c).openRows - 1 = k := by omega
  have hle : ∀ r, r < (upTo settings g h c).openRows ↔ r ≤ (upTo settings g h c).openRows - 1 := by
    omega
  simp only [hle]
  exact hasEntry_before c (lowest_lt h c _) hs

theorem before_getElem (c : Fin n) (hk : k < m) (hopen : k ≤ (upTo settings g h c).openRows - 1)
    (hi : i < m) (hclosed : (upTo settings g h c).openRows ≤ i) :
    (before settings g h c k hk).grid[i] = (upTo settings g h c).grid[i] := by
  apply grid_before_of_step (P := fun grid => grid[i] = (upTo settings g h c).grid[i]) c
  case hstep =>
    intro r hr reached hgrid
    have hlt := reached.lt
    rw [← hgrid]
    exact (Step.effect_ofPair settings _ c r (Nat.lt_of_succ_lt hr) hr).getElem_of_ne hi (by omega) (by omega)
  case hpass => rfl
  case hopen => exact hopen

theorem hasEntry_swept (c : Fin n) (hclosed : (upTo settings g h c).openRows ≤ r) :
    (swept settings g h c).grid.HasEntry r j ↔ (upTo settings g h c).grid.HasEntry r j :=
  Grid.hasEntry_congr fun hr => before_getElem c _ (Nat.le_refl _) hr hclosed

def KeepsZeros (settings : SweepSettings) (g : Grid m (n + 1)) (h : n ≤ m) : Prop :=
  ∀ (c : Fin n) (r : Nat) (hr : r + 1 < m), Reaches settings g h c r hr → ∀ j,
    ¬ (before settings g h c r (Nat.lt_of_succ_lt hr)).grid.HasEntry r j →
    ¬ (before settings g h c r (Nat.lt_of_succ_lt hr)).grid.HasEntry (r + 1) j →
      ¬ (stepAt settings g h c r hr).grid.HasEntry r j ∧
        ¬ (stepAt settings g h c r hr).grid.HasEntry (r + 1) j

theorem keepsZeros_of_within (hM : Step.IsCellBound M) (hg : g.Within M) :
    KeepsZeros settings g h := by
  intro c r hr reached j hupper hlower
  by_cases hj : j < n + 1
  . have hlt := reached.lt
    have hr' : r < m := by omega
    have hstep := Step.effect_ofPair settings (before settings g h c r hr').grid c r hr' hr
    have hkept := hstep.isZero_of_isZero hM (within_before hM hg c hr' (by omega)) ⟨j, hj⟩
      ((Grid.not_hasEntry_iff hr' hj).mp hupper) ((Grid.not_hasEntry_iff hr hj).mp hlower)
    exact ⟨(Grid.not_hasEntry_iff hr' hj).mpr hkept.left, (Grid.not_hasEntry_iff hr hj).mpr hkept.right⟩
  . exact ⟨fun hentry => hj hentry.2.1, fun hentry => hj hentry.2.1⟩

theorem keepsZeros_of_isBounded (hg : g.IsBounded) : KeepsZeros settings g h := by
  obtain ⟨M, hM, hwithin⟩ := hg.exists_isCellBound
  exact keepsZeros_of_within hM hwithin

theorem not_hasEntry_before (hkeep : KeepsZeros settings g h) (c : Fin n)
    (hzero : ∀ r < (upTo settings g h c).openRows, ¬ (upTo settings g h c).grid.HasEntry r j)
    (hk : k < m) (hopen : k ≤ (upTo settings g h c).openRows - 1) :
    ∀ r < (upTo settings g h c).openRows, ¬ (before settings g h c k hk).grid.HasEntry r j := by
  -- A column that is zero in all open rows stays so.
  apply before_of_step (P := fun s => ∀ r < (upTo settings g h c).openRows, ¬ s.grid.HasEntry r j) c
  case hstep =>
    intro q hq reached hgrid r hr
    have hlt := reached.lt
    have hkept := hkeep c q hq reached j (hgrid q (by omega)) (hgrid (q + 1) hlt)
    rw [grid_record]
    by_cases hupper : r = q
    . subst hupper
      exact hkept.left
    . by_cases hlower : r = q + 1
      . subst hlower
        exact hkept.right
      . rw [hasEntry_stepAt c hq hupper hlower]
        exact hgrid r hr
  case hpass => exact fun hm => hzero
  case hopen => exact hopen

/-!
### All passes
-/

section columns

variable {l : List Nat} {P : Nat → Prop}

theorem pairwise_append_column (hsorted : l.Pairwise (· < ·)) (hbelow : ∀ f ∈ l, f < c) :
    (l ++ [c]).Pairwise (· < ·) := by
  rw [List.pairwise_append]
  refine ⟨hsorted, List.pairwise_singleton _ _, ?_⟩
  intro f hf d hd
  rw [List.mem_singleton.mp hd]
  exact hbelow f hf

theorem mem_append_column_iff (hl : ∀ f < c, f ∈ l ↔ P f) (hc : P c) :
    ∀ f < c + 1, f ∈ l ++ [c] ↔ P f := by
  intro f hf
  rw [List.mem_append, List.mem_singleton]
  cases Nat.eq_or_lt_of_le (Nat.le_of_lt_succ hf) with
  | inl heq =>
    subst heq
    simp [hc]
  | inr hlt =>
    rw [← hl f hlt]
    exact or_iff_left (Nat.ne_of_lt hlt)

theorem mem_columns_iff (hl : ∀ f < c, f ∈ l ↔ P f) (hbelow : ∀ f ∈ l, f < c)
    (hc : ¬ P c) : ∀ f < c + 1, f ∈ l ↔ P f := by
  intro f hf
  cases Nat.eq_or_lt_of_le (Nat.le_of_lt_succ hf) with
  | inl heq =>
    subst heq
    constructor
    . intro hmem
      exact absurd (hbelow f hmem) (Nat.lt_irrefl f)
    . intro hP
      exact absurd hP hc
  | inr hlt => exact hl f hlt

end columns

structure Pivoted (settings : SweepSettings) (g : Grid m (n + 1)) (h : n ≤ m) (p : Nat)
    (s : Sweep m n) : Prop where
  openRows_add : s.openRows + s.pivotColumns.length = n
  lt_iff : ∀ c, c < p ↔ c ∈ s.pivotColumns ∨ c ∈ s.freeColumns
  pivot_sorted : s.pivotColumns.Pairwise (· < ·)
  free_sorted : s.freeColumns.Pairwise (· < ·)
  pivot_iff : ∀ c < p, c ∈ s.pivotColumns ↔
    ∃ r < (upTo settings g h c).openRows, (upTo settings g h c).grid.HasEntry r c
  free_iff : ∀ c < p, c ∈ s.freeColumns ↔
    ¬ ∃ r < (upTo settings g h c).openRows, (upTo settings g h c).grid.HasEntry r c
  pivot_entry : ∀ i (hi : i < s.pivotColumns.length), s.grid.HasEntry (n - 1 - i) s.pivotColumns[i]
  free_zero : ∀ f ∈ s.freeColumns, ∀ r, r + s.pivotColumns.countP (· < f) < n → ¬ s.grid.HasEntry r f

theorem pivoted_zero : Pivoted settings g h 0 (upTo settings g h 0) := by
  rw [upTo_zero]
  constructor <;> simp [start]

section pass

variable (hkeep : KeepsZeros settings g h) (c : Fin n)
variable (ih : Pivoted settings g h c (upTo settings g h c))

include ih

theorem Pivoted.lt_of_mem_pivotColumns (hf : f ∈ (upTo settings g h c).pivotColumns) : f < c :=
  (ih.lt_iff f).mpr (Or.inl hf)

theorem Pivoted.lt_of_mem_freeColumns (hf : f ∈ (upTo settings g h c).freeColumns) : f < c :=
  (ih.lt_iff f).mpr (Or.inr hf)

theorem Pivoted.pivot_entry_swept (i : Nat) (hi : i < (upTo settings g h c).pivotColumns.length) :
    (swept settings g h c).grid.HasEntry (n - 1 - i) (upTo settings g h c).pivotColumns[i] := by
  have hadd := ih.openRows_add
  rw [hasEntry_swept c (by omega)]
  exact ih.pivot_entry i hi

include hkeep

theorem Pivoted.free_zero_swept (hf : f ∈ (upTo settings g h c).freeColumns)
    (hr : r + (upTo settings g h c).pivotColumns.countP (· < f) < n) :
    ¬ (swept settings g h c).grid.HasEntry r f := by
  have hadd := ih.openRows_add
  have hfc := ih.lt_of_mem_freeColumns c hf
  by_cases hopen : r < (upTo settings g h c).openRows
  . apply not_hasEntry_before hkeep c _ _ (Nat.le_refl _) r hopen
    intro q hq
    have hcount := List.countP_le_length (p := (· < f)) (l := (upTo settings g h c).pivotColumns)
    exact ih.free_zero f hf q (by omega)
  . rw [hasEntry_swept c (by omega)]
    exact ih.free_zero f hf r hr

theorem Pivoted.settle_pivot {t : Sweep m n} (hgrid : t.grid = (swept settings g h c).grid)
    (hopen : (upTo settings g h c).openRows = t.openRows + 1)
    (hpivots : t.pivotColumns = (upTo settings g h c).pivotColumns ++ [c.val])
    (hfrees : t.freeColumns = (upTo settings g h c).freeColumns)
    (hentry : (swept settings g h c).grid.HasEntry t.openRows c)
    (hcolumn : ∃ r < (upTo settings g h c).openRows, (upTo settings g h c).grid.HasEntry r c) :
    Pivoted settings g h (c + 1) t := by
  have hadd := ih.openRows_add
  constructor
  case openRows_add =>
    rw [hpivots, List.length_append, List.length_singleton]
    omega
  case lt_iff =>
    intro f
    rw [hpivots, hfrees, List.mem_append, List.mem_singleton, Nat.lt_succ_iff_lt_or_eq, ih.lt_iff f]
    exact or_right_comm
  case pivot_sorted =>
    rw [hpivots]
    exact pairwise_append_column ih.pivot_sorted fun _ => ih.lt_of_mem_pivotColumns c
  case free_sorted =>
    rw [hfrees]
    exact ih.free_sorted
  case pivot_iff =>
    rw [hpivots]
    exact mem_append_column_iff ih.pivot_iff hcolumn
  case free_iff =>
    rw [hfrees]
    exact mem_columns_iff ih.free_iff (fun _ => ih.lt_of_mem_freeColumns c) (not_not_intro hcolumn)
  case pivot_entry =>
    intro i hi
    rw [hgrid]
    simp only [hpivots] at hi ⊢
    rw [List.length_append, List.length_singleton] at hi
    by_cases hlast : i < (upTo settings g h c).pivotColumns.length
    . rw [List.getElem_append_left hlast]
      exact ih.pivot_entry_swept c i hlast
    . obtain rfl : i = (upTo settings g h c).pivotColumns.length := by omega
      have hrow : n - 1 - (upTo settings g h c).pivotColumns.length = t.openRows := by omega
      rw [List.getElem_append_right (Nat.le_refl _), hrow]
      simpa using hentry
  case free_zero =>
    intro f hf r hr
    rw [hfrees] at hf
    have hfc := ih.lt_of_mem_freeColumns c hf
    rw [hpivots, List.countP_append] at hr
    rw [hgrid]
    exact ih.free_zero_swept hkeep c hf (by omega)

theorem Pivoted.settle_free {t : Sweep m n} (hgrid : t.grid = (swept settings g h c).grid)
    (hopen : t.openRows = (upTo settings g h c).openRows)
    (hpivots : t.pivotColumns = (upTo settings g h c).pivotColumns)
    (hfrees : t.freeColumns = (upTo settings g h c).freeColumns ++ [c.val])
    (hcolumn : ¬ ∃ r < (upTo settings g h c).openRows, (upTo settings g h c).grid.HasEntry r c) :
    Pivoted settings g h (c + 1) t := by
  have hadd := ih.openRows_add
  constructor
  case openRows_add =>
    rw [hpivots]
    omega
  case lt_iff =>
    intro f
    rw [hpivots, hfrees, List.mem_append, List.mem_singleton, Nat.lt_succ_iff_lt_or_eq, ih.lt_iff f]
    exact or_assoc
  case pivot_sorted =>
    rw [hpivots]
    exact ih.pivot_sorted
  case free_sorted =>
    rw [hfrees]
    exact pairwise_append_column ih.free_sorted fun _ => ih.lt_of_mem_freeColumns c
  case pivot_iff =>
    rw [hpivots]
    exact mem_columns_iff ih.pivot_iff (fun _ => ih.lt_of_mem_pivotColumns c) hcolumn
  case free_iff =>
    rw [hfrees]
    exact mem_append_column_iff ih.free_iff hcolumn
  case pivot_entry =>
    intro i hi
    rw [hgrid]
    simp only [hpivots] at hi ⊢
    exact ih.pivot_entry_swept c i hi
  case free_zero =>
    intro f hf r hr
    rw [hgrid]
    rw [hpivots] at hr
    rw [hfrees, List.mem_append, List.mem_singleton] at hf
    cases hf with
    | inl hf => exact ih.free_zero_swept hkeep c hf hr
    | inr heq =>
      -- All pivots come before the new free column, so its rows are the open ones.
      have hcount : (upTo settings g h c).pivotColumns.countP (· < f) =
          (upTo settings g h c).pivotColumns.length := by
        rw [List.countP_eq_length]
        intro d hd
        rw [heq]
        simpa using ih.lt_of_mem_pivotColumns c hd
      subst heq
      apply not_hasEntry_before hkeep c _ _ (Nat.le_refl _) r (by omega)
      intro q hq hentry
      exact hcolumn ⟨q, hq, hentry⟩

theorem Pivoted.settle (hs : (swept settings g h c).ended = none) :
    Pivoted settings g h (c + 1) ((swept settings g h c).settle c) := by
  obtain ⟨hopen, hpivots, hfrees⟩ := swept_frame settings g h c
  cases settled_settle c (swept settings g h c) with
  | pivot hk hlt hentry hopen' hpivots' hfrees' =>
    rw [hopen] at hk
    rw [← Grid.hasEntry_castSucc hlt] at hentry
    rw [hpivots] at hpivots'
    rw [hfrees] at hfrees'
    apply ih.settle_pivot hkeep c (grid_settle c) (by rw [hk, hopen']) hpivots' hfrees'
    . rwa [hopen']
    . exact (hasEntry_lowest c hs hk).mp hentry
  | free hentry hopen' hpivots' hfrees' =>
    rw [hopen] at hopen'
    rw [hpivots] at hpivots'
    rw [hfrees] at hfrees'
    apply ih.settle_free hkeep c (grid_settle c) hopen' hpivots' hfrees'
    intro hcolumn
    cases hk : (upTo settings g h c).openRows with
    | zero =>
      obtain ⟨r, hr, -⟩ := hcolumn
      omega
    | succ k =>
      have hle := (upTo settings g h c).openRows_le
      have hlt : k < m := by omega
      have hlowest := (hasEntry_lowest c hs hk).mpr hcolumn
      rw [Grid.hasEntry_castSucc hlt, hentry k hlt (by rw [hopen, hk])] at hlowest
      cases hlowest

end pass

theorem pivoted_upTo (hkeep : KeepsZeros settings g h) (hp : p ≤ n)
    (hs : (upTo settings g h p).ended = none) : Pivoted settings g h p (upTo settings g h p) := by
  induction p with
  | zero => exact pivoted_zero
  | succ p ih =>
    have hended := ended_upTo_succ ⟨p, hp⟩ hs
    rw [upTo_succ_eq_settle ⟨p, hp⟩ hs]
    exact Pivoted.settle hkeep ⟨p, hp⟩ (ih (by omega) hended.left) hended.right

theorem pivoted_run (hkeep : KeepsZeros settings g h) (hs : (run settings g h).ended = none) :
    Pivoted settings g h n (run settings g h) := by
  rw [← upTo_length] at hs ⊢
  exact pivoted_upTo hkeep (Nat.le_refl n) hs

theorem Pivoted.mem_freeColumns_iff {s : Sweep m n} (hp : Pivoted settings g h n s) :
    c ∈ s.freeColumns ↔ c < n ∧ c ∉ s.pivotColumns := by
  constructor
  . intro hfree
    have hc := (hp.lt_iff c).mpr (Or.inr hfree)
    refine ⟨hc, ?_⟩
    intro hpivot
    exact (hp.free_iff c hc).mp hfree ((hp.pivot_iff c hc).mp hpivot)
  . intro hc
    exact ((hp.lt_iff c).mp hc.left).resolve_left hc.right

/-!
### Full pivots
-/

theorem Pivoted.hasFullPivots_iff {s : Sweep m n} (hp : Pivoted settings g h n s) :
    s.grid.hasFullPivots h = true ↔ s.freeColumns = [] := by
  -- A column without a pivot leaves a zero on the antidiagonal in the first such column.
  rw [Grid.hasFullPivots_iff_hasEntry]
  constructor
  . intro hall
    cases hfrees : s.freeColumns with
    | nil => rfl
    | cons f frees =>
      have hf : f ∈ s.freeColumns := by simp [hfrees]
      have hfn := (hp.lt_iff f).mpr (Or.inr hf)
      have hsorted := hp.free_sorted
      rw [hfrees, List.pairwise_cons] at hsorted
      have hbefore : s.pivotColumns.filter (· < f) = List.range f := by
        apply eq_range_of_pairwise (hp.pivot_sorted.filter _)
        intro c
        rw [List.mem_filter, decide_eq_true_iff]
        constructor
        . intro hc
          exact hc.right
        . intro hc
          refine ⟨?_, hc⟩
          cases (hp.lt_iff c).mp (by omega) with
          | inl hpivot => exact hpivot
          | inr hfree =>
            rw [hfrees, List.mem_cons] at hfree
            cases hfree with
            | inl heq => omega
            | inr hmem =>
              have := hsorted.left c hmem
              omega
      refine absurd (hall f hfn) (hp.free_zero f hf (n - 1 - f) ?_)
      rw [List.countP_eq_length_filter, hbefore, List.length_range]
      omega
  . intro hfrees k hk
    have hrange : s.pivotColumns = List.range n := by
      apply eq_range_of_pairwise hp.pivot_sorted
      intro c
      rw [hp.lt_iff c, hfrees]
      simp
    have hentry := hp.pivot_entry k
    simpa [hrange, hk] using hentry

end Sweep

end RowSweep
