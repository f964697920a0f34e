import RowSweep.Proofs.Sweep.Clearing
import RowSweep.Proofs.Sweep.Pivots

/-!
This module contains the echelon form of a swept grid. It is reached if each step clears the entry of its upper
row in the column of the pass, which settles exactly when a sweep is as its name says.
-/

namespace RowSweep

namespace Sweep

def StepClears (settings : SweepSettings) (g : Grid m (n + 1)) (h : n ≤ m) (c : Fin n) (r : Nat)
    (hr : r + 1 < m) : Prop :=
  ¬ (stepAt settings g h c r hr).grid.HasEntry r c

structure Cleared (p : Nat) (s : Sweep m n) : Prop where
  before : ∀ i (hi : i < s.pivotColumns.length), ∀ c < s.pivotColumns[i], ¬ s.grid.HasEntry (n - 1 - i) c
  above : ∀ r < s.openRows, ∀ c < p, ¬ s.grid.HasEntry r c

variable {settings : SweepSettings} {g : Grid m (n + 1)} {h : n ≤ m}

theorem not_hasEntry_before_of_clears (c : Fin n)
    (hclear : ∀ r (hr : r + 1 < m), Reaches settings g h c r hr → StepClears settings g h c r hr)
    (hk : k < m) (hopen : k ≤ (upTo settings g h c).openRows - 1)
    (hs : (before settings g h c k hk).ended = none) :
    ∀ r < k, ¬ (before settings g h c k hk).grid.HasEntry r c := by
  -- After `k` pairs of a pass its column is clear in the rows above row `k`.
  induction k with
  | zero =>
    intro r hr
    omega
  | succ k ih =>
    intro r hr
    have hended : (before settings g h c k (Nat.lt_of_succ_lt hk)).ended = none := ended_of_pairs_succ hk hs
    rw [before_succ c hk hended, grid_record]
    cases Nat.eq_or_lt_of_le (Nat.le_of_lt_succ hr) with
    | inl heq =>
      subst heq
      exact hclear r hk ⟨by omega, hended⟩
    | inr hlt =>
      rw [hasEntry_stepAt c hk (by omega) (by omega)]
      exact ih (by omega) (by omega) hended r hlt

section pass

variable (hkeep : KeepsZeros settings g h) (c : Fin n)
variable (hclear : ∀ r (hr : r + 1 < m), Reaches settings g h c r hr → StepClears settings g h c r hr)
variable (hs : (swept settings g h c).ended = none)
variable (ihp : Pivoted settings g h c (upTo settings g h c)) (ih : Cleared c (upTo settings g h c))

include hkeep ih in
theorem Cleared.above_swept (hr : r < (upTo settings g h c).openRows) (hj : j < c.val) :
    ¬ (swept settings g h c).grid.HasEntry r j :=
  not_hasEntry_before hkeep c (fun q hq => ih.above q hq j hj) _ (Nat.le_refl _) r hr

include ihp ih in
theorem Cleared.before_swept (i : Nat) (hi : i < (upTo settings g h c).pivotColumns.length)
    (hj : j < (upTo settings g h c).pivotColumns[i]) :
    ¬ (swept settings g h c).grid.HasEntry (n - 1 - i) j := by
  have hadd := ihp.openRows_add
  rw [hasEntry_swept c (by omega)]
  exact ih.before i hi j hj

include hkeep hclear hs ihp ih in
theorem Cleared.settle : Cleared (c + 1) ((swept settings g h c).settle c) := by
  have hadd := ihp.openRows_add
  have hcolumn : ∀ r < (upTo settings g h c).openRows - 1, ¬ (swept settings g h c).grid.HasEntry r c :=
    not_hasEntry_before_of_clears c hclear _ (Nat.le_refl _) hs
  obtain ⟨hopen, hpivots, -⟩ := swept_frame settings g h c
  cases settled_settle c (swept settings g h c) with
  | @pivot k hk hlt hentry hopen' hpivots' hfrees' =>
    rw [hopen] at hk
    rw [hpivots] at hpivots'
    constructor
    case before =>
      intro i hi
      rw [grid_settle]
      simp only [hpivots'] at hi ⊢
      rw [List.length_append, List.length_singleton] at hi
      intro j hj
      by_cases hlast : i < (upTo settings g h c).pivotColumns.length
      . rw [List.getElem_append_left hlast] at hj
        exact ih.before_swept c ihp i hlast hj
      . obtain rfl : i = (upTo settings g h c).pivotColumns.length := by omega
        have hrow : n - 1 - (upTo settings g h c).pivotColumns.length = k := by omega
        rw [List.getElem_append_right (Nat.le_refl _)] at hj
        rw [hrow]
        exact ih.above_swept hkeep c (by omega) (by simpa using hj)
    case above =>
      intro r hr j hj
      rw [hopen'] at hr
      rw [grid_settle]
      cases Nat.eq_or_lt_of_le (Nat.le_of_lt_succ hj) with
      | inl heq =>
        rw [heq]
        exact hcolumn r (by omega)
      | inr hlt => exact ih.above_swept hkeep c (by omega) hlt
  | free hentry hopen' hpivots' hfrees' =>
    rw [hopen] at hopen'
    rw [hpivots] at hpivots'
    constructor
    case before =>
      intro i hi
      rw [grid_settle]
      simp only [hpivots'] at hi ⊢
      intro j hj
      exact ih.before_swept c ihp i hi hj
    case above =>
      intro r hr j hj
      rw [hopen'] at hr
      rw [grid_settle]
      cases Nat.eq_or_lt_of_le (Nat.le_of_lt_succ hj) with
      | inl heq =>
        rw [heq]
        by_cases hlowest : r < (upTo settings g h c).openRows - 1
        . exact hcolumn r hlowest
        . have hle := (upTo settings g h c).openRows_le
          rw [Grid.not_hasEntry_castSucc (by omega)]
          exact hentry r (by omega) (by rw [hopen]; omega)
      | inr hlt => exact ih.above_swept hkeep c hr hlt

end pass

theorem cleared_upTo (hkeep : KeepsZeros settings g h)
    (hclear : ∀ (c : Fin n) (r : Nat) (hr : r + 1 < m), Reaches settings g h c r hr →
      StepClears settings g h c r hr)
    (hp : p ≤ n) (hs : (upTo settings g h p).ended = none) : Cleared p (upTo settings g h p) := by
  induction p with
  | zero =>
    rw [upTo_zero]
    constructor <;> simp [start]
  | succ p ih =>
    obtain ⟨hended, hswept⟩ := ended_upTo_succ ⟨p, hp⟩ hs
    rw [upTo_succ_eq_settle ⟨p, hp⟩ hs]
    exact Cleared.settle hkeep ⟨p, hp⟩ (hclear ⟨p, hp⟩) hswept
      (pivoted_upTo hkeep (Nat.le_of_lt hp) hended) (ih (Nat.le_of_lt hp) hended)

theorem isEchelon_run (hkeep : KeepsZeros settings g h)
    (hclear : ∀ (c : Fin n) (r : Nat) (hr : r + 1 < m), Reaches settings g h c r hr →
      StepClears settings g h c r hr)
    (hs : (run settings g h).ended = none) :
    (run settings g h).grid.IsEchelon (run settings g h).pivotColumns := by
  rw [← upTo_length] at hs ⊢
  have hpivoted := pivoted_upTo hkeep (Nat.le_refl n) hs
  have hcleared := cleared_upTo hkeep hclear (Nat.le_refl n) hs
  have hadd := hpivoted.openRows_add
  refine ⟨hpivoted.pivot_entry, hcleared.before, ?_⟩
  intro r hr
  exact hcleared.above r (by omega)

theorem stepClears_iff (hM : Step.IsCellBound M) (hg : g.Within M) (c : Fin n) (hr : r < m)
    (hr1 : r + 1 < m) (reached : Reaches settings g h c r hr1) :
    StepClears settings g h c r hr1 ↔
      (Step.IsScaled settings (before settings g h c r hr).grid c r hr hr1 →
        Step.Clears settings (before settings g h c r hr).grid c r hr hr1) := by
  have hlt := reached.lt
  unfold StepClears stepAt
  rw [Grid.not_hasEntry_castSucc (by omega)]
  exact Step.isZero_upper_iff hM (within_before hM hg c (by omega) (by omega))

structure EndsInEchelon (settings : SweepSettings) (g : Grid m (n + 1)) (h : n ≤ m) : Prop where
  echelon : (run settings g h).grid.IsEchelon (run settings g h).pivotColumns
  zero : ∀ step ∈ (run settings g h).trace, step.action = .combine ∨ step.action = .swapCombine →
    ¬ step.grid.HasEntry step.row step.column

theorem endsInEchelon_iff_stepClears (hM : Step.IsCellBound M) (hg : g.Within M)
    (hs : (run settings g h).ended = none) :
    EndsInEchelon settings g h ↔
      ∀ (c : Fin n) (r : Nat) (hr : r + 1 < m), Reaches settings g h c r hr →
        StepClears settings g h c r hr := by
  constructor
  . intro hechelon c r hr reached
    rw [stepClears_iff hM hg c (Nat.lt_of_succ_lt hr) hr reached]
    intro hscaled
    have hstep := Step.effect_ofPair settings (before settings g h c r (Nat.lt_of_succ_lt hr)).grid c r
      (Nat.lt_of_succ_lt hr) hr
    have hzero := hechelon.zero _
      (stepAt_mem_trace hr reached (isFinite_divisor_stepAt hM hg c hr reached))
      (Step.action_ofPair_of_isScaled hscaled)
    unfold stepAt at hzero
    rw [hstep.row_eq, hstep.column_eq] at hzero
    exact (stepClears_iff hM hg c (Nat.lt_of_succ_lt hr) hr reached).mp hzero hscaled
  . intro hclear
    refine ⟨isEchelon_run (keepsZeros_of_within hM hg) hclear hs, ?_⟩
    intro step hmem _
    obtain ⟨c, r, hr, reached, rfl⟩ := exists_of_mem_trace step hmem
    have hstep := Step.effect_ofPair settings (before settings g h c r (Nat.lt_of_succ_lt hr)).grid c r
      (Nat.lt_of_succ_lt hr) hr
    have hzero := hclear c r hr reached
    unfold StepClears stepAt at hzero
    unfold stepAt
    rwa [hstep.row_eq, hstep.column_eq]

end Sweep

theorem endsInEchelon_iff_clears (settings : SweepSettings) (g : Grid n (n + 1)) (hg : g.IsBounded)
    (hended : (Sweep.run settings g (Nat.le_refl n)).ended = none) :
    (Sweep.EndsInEchelon settings g (Nat.le_refl n) ↔
      ∀ (c : Fin n) (r : Nat) (hr : r < n) (h : r + 1 < n),
        Sweep.Reaches settings g (Nat.le_refl n) c r h →
          let state := (Sweep.before settings g (Nat.le_refl n) c r hr).grid
          Step.IsScaled settings state c r hr h → Step.Clears settings state c r hr h) ∧
    (settings.zeroSnap.isFinite = true → (Binary64.twoPow (-52)).le settings.zeroSnap = true →
      settings.zeroSnap.lt .one = true →
      (∀ (c : Fin n) (r : Nat) (hr : r < n) (h : r + 1 < n),
        Sweep.Reaches settings g (Nat.le_refl n) c r h →
          let state := (Sweep.before settings g (Nat.le_refl n) c r hr).grid
          Step.IsScaled settings state c r hr h →
            state[r][c.castSucc].IsComparable state[r + 1][c.castSucc]) →
      Sweep.EndsInEchelon settings g (Nat.le_refl n)) := by
  obtain ⟨M, hM, hwithin⟩ := hg.exists_isCellBound
  have hiff : Sweep.EndsInEchelon settings g (Nat.le_refl n) ↔
      ∀ (c : Fin n) (r : Nat) (hr : r < n) (h : r + 1 < n),
        Sweep.Reaches settings g (Nat.le_refl n) c r h →
          Step.IsScaled settings (Sweep.before settings g (Nat.le_refl n) c r hr).grid c r hr h →
            Step.Clears settings (Sweep.before settings g (Nat.le_refl n) c r hr).grid c r hr h := by
    rw [Sweep.endsInEchelon_iff_stepClears hM hwithin hended]
    constructor
    . intro hclear c r hr h reached
      exact (Sweep.stepClears_iff hM hwithin c hr h reached).mp (hclear c r h reached)
    . intro hclear c r h reached
      exact (Sweep.stepClears_iff hM hwithin c (Nat.lt_of_succ_lt h) h reached).mpr (hclear c r _ h reached)
  refine ⟨hiff, ?_⟩
  intro hfinite hlow hhigh hratio
  rw [hiff]
  intro c r hr h reached hscaled
  have hlt := reached.lt
  exact Step.clears_of_isComparable (Sweep.within_before hM hwithin c (by omega) (by omega)) hscaled
    hfinite hlow hhigh (hratio c r hr h reached hscaled)

def roundedRatio : Grid 2 3 :=
  #v[#v[.one, .one, .one], #v[.ofNat 49, .one, .ofNat 2]]

def tinyRatio : Grid 2 3 :=
  #v[#v[.twoPow (-1000), .zero, .one], #v[.twoPow 1000, .zero, .ofNat 2]]

def scaledSettings : SweepSettings :=
  { Thresholds.default.sweep with integerRatio := false }

theorem endsInEchelon_roundedRatio :
    roundedRatio.IsBounded ∧ (Sweep.run scaledSettings roundedRatio (Nat.le_refl 2)).ended = none ∧
      Sweep.EndsInEchelon scaledSettings roundedRatio (Nat.le_refl 2) := by
  have hbounded : roundedRatio.IsBounded := by decide +kernel
  have hended : (Sweep.run scaledSettings roundedRatio (Nat.le_refl 2)).ended = none := by decide +kernel
  have hpairs : ∀ c : Fin 2,
      (Sweep.before scaledSettings roundedRatio (Nat.le_refl 2) c 0 (by decide)).grid[0][c.castSucc].IsComparable
        (Sweep.before scaledSettings roundedRatio (Nat.le_refl 2) c 0 (by decide)).grid[1][c.castSucc] := by
    decide +kernel
  refine ⟨hbounded, hended, ?_⟩
  apply (endsInEchelon_iff_clears scaledSettings roundedRatio hbounded hended).right
  . decide +kernel
  . decide +kernel
  . decide +kernel
  . intro c r hr h reached
    obtain rfl : r = 0 := by omega
    intro state hscaled
    exact hpairs c

theorem not_endsInEchelon :
    (tinyRatio.IsBounded ∧
      (Sweep.run Thresholds.default.sweep tinyRatio (Nat.le_refl 2)).ended = none ∧
      ¬ (Sweep.run Thresholds.default.sweep tinyRatio (Nat.le_refl 2)).grid.IsEchelon
        (Sweep.run Thresholds.default.sweep tinyRatio (Nat.le_refl 2)).pivotColumns) ∧
    (roundedRatio.IsBounded ∧
      (Sweep.run { scaledSettings with zeroSnap := .zero } roundedRatio (Nat.le_refl 2)).ended = none ∧
      ¬ (Sweep.run { scaledSettings with zeroSnap := .zero } roundedRatio (Nat.le_refl 2)).grid.IsEchelon
        (Sweep.run { scaledSettings with zeroSnap := .zero } roundedRatio (Nat.le_refl 2)).pivotColumns) := by
  -- The default snap does not help if the ratio of two entries underflows, and without a snap the rounding of
  -- the ratio is enough to leave something.
  constructor
  . refine ⟨by decide +kernel, by decide +kernel, ?_⟩
    -- The only pivot is in the lower row, but an unknown occurs in the upper one.
    have hpivots : (Sweep.run Thresholds.default.sweep tinyRatio (Nat.le_refl 2)).pivotColumns = [0] := by
      decide +kernel
    intro hechelon
    exact hechelon.above 0 (by rw [hpivots]; decide) 0 (by decide) (by decide +kernel)
  . refine ⟨by decide +kernel, by decide +kernel, ?_⟩
    -- The second pivot is in the upper row, which still has an entry in the first column.
    have hpivots : (Sweep.run { scaledSettings with zeroSnap := .zero } roundedRatio
        (Nat.le_refl 2)).pivotColumns = [0, 1] := by
      decide +kernel
    intro hechelon
    exact hechelon.before 1 (by rw [hpivots]; decide) 0 (by simp [hpivots]) (by decide +kernel)

end RowSweep
