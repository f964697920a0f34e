import RowSweep.Proofs.Multipliers.Exact
import RowSweep.Proofs.Multipliers.Shift
import RowSweep.Proofs.Sweep.Bounds
import RowSweep.Proofs.Sweep.Merger

/-!
This module contains two sweeps side by side, over grids whose rows are powers of two apart. They stay in step as long
as they decide alike wherever both combine rows.
-/

namespace RowSweep

open Binary64

attribute [local irreducible] unitsPerOne rangeEnd

namespace Merger

/--
Whether two mergers take their rows in the same order, with multipliers of the same kind, and divide what comes out by
numbers that are a power of two apart.
-/
structure Alike (merger merger' : Merger n) : Prop where
  action_eq : merger'.action = merger.action
  integral_eq : merger'.multipliers.integral = merger.multipliers.integral
  divisor : merger.row.rescale.2.IsPowerApart merger'.row.rescale.2

instance (merger merger' : Merger n) : Decidable (merger.Alike merger') :=
  decidable_of_iff (merger'.action = merger.action ∧
      merger'.multipliers.integral = merger.multipliers.integral ∧
      merger.row.rescale.2.IsPowerApart merger'.row.rescale.2)
    ⟨fun h => ⟨h.left, h.right.left, h.right.right⟩, fun h => ⟨h.action_eq, h.integral_eq, h.divisor⟩⟩

structure IsNormal (merger : Merger (n + 1)) (c : Fin n) : Prop where
  ratio : merger.upper[c.castSucc].IsComparable merger.lower[c.castSucc]
  cells : ∀ j : Fin (n + 1), merger.multipliers.IsNormalCell merger.zeroSnap merger.upper[j] merger.lower[j]

instance (merger : Merger (n + 1)) (c : Fin n) : Decidable (merger.IsNormal c) :=
  decidable_of_iff (merger.upper[c.castSucc].IsComparable merger.lower[c.castSucc] ∧
      ∀ j : Fin (n + 1), merger.multipliers.IsNormalCell merger.zeroSnap merger.upper[j] merger.lower[j])
    ⟨fun h => ⟨h.left, h.right⟩, fun h => ⟨h.ratio, h.cells⟩⟩

/--
Whether two mergers give rows that are a power of two apart: they are the same one, or they decide alike and nothing
becomes subnormal in either.
-/
def KeepsStep (merger merger' : Merger (n + 1)) (c : Fin n) : Prop :=
  merger' = merger ∨ merger.Alike merger' ∧ merger.IsNormal c ∧ merger'.IsNormal c

instance (merger merger' : Merger (n + 1)) (c : Fin n) : Decidable (merger.KeepsStep merger' c) :=
  inferInstanceAs (Decidable (_ ∨ _ ∧ _ ∧ _))

end Merger

/-!
### A pair of rows
-/

namespace Step

namespace Merges

variable {settings : SweepSettings} {upper lower upper' lower' : Row (n + 1)} {c : Fin n} {M : Nat}
variable {merger merger' : Merger (n + 1)} {a b : Int}

theorem isFinite_sum (merges : Merges settings upper lower c merger) (hM : IsCellBound M)
    (hupper : ∀ j : Fin (n + 1), Binary64.Within M merger.upper[j])
    (hlower : ∀ j : Fin (n + 1), Binary64.Within M merger.lower[j]) (j : Fin (n + 1)) :
    (merger.upper[j] * merger.multipliers.target +
      merger.lower[j] * merger.multipliers.sign.apply merger.multipliers.copy).isFinite = true := by
  have hcell := (merges.pairing.within_combine merges.upperEntry hupper hlower hM .zero j).isFinite
  rwa [Multipliers.getElem_combine, Multipliers.combineCell_zero] at hcell

section shift

variable (merges : Merges settings upper lower c merger) (merges' : Merges settings upper' lower' c merger')
variable (integral_eq : merger'.multipliers.integral = merger.multipliers.integral)
variable (normal : merger.IsNormal c) (normal' : merger'.IsNormal c)
variable (hu : merger.upper.Shifted a merger'.upper) (hl : merger.lower.Shifted b merger'.lower)
variable (hpivoting : settings.pairwisePivoting = true)

include merges merges' integral_eq normal normal' hu hl hpivoting

theorem exists_shifted_multipliers :
    ∃ i j, a + i = b + j ∧ merger.multipliers.Shifted i j merger'.multipliers := by
  cases hintegral : merger.multipliers.integral with
  | true =>
    have hintegral' := integral_eq.trans hintegral
    exact Multipliers.exists_shifted_integral? (merges.pairing.integral?_eq hintegral)
      (merges'.pairing.integral?_eq hintegral') (hu c.castSucc) (hl c.castSucc) merges.lowerEntry
  | false =>
    have hintegral' := integral_eq.trans hintegral
    rw [merges.pairing.eq_scaling hintegral, merges'.pairing.eq_scaling hintegral']
    refine ⟨0, a - b, by ring, ?_⟩
    exact Multipliers.shifted_scaling (hu c.castSucc) (hl c.castSucc) merges.upperEntry merges.lowerEntry
      (merges.ordered hpivoting hintegral) (merges'.ordered hpivoting hintegral') normal.ratio normal'.ratio

theorem exists_shifted_row (hM : IsCellBound M) (hsnap : Within unitsPerOne settings.zeroSnap)
    (hupper : ∀ j : Fin (n + 1), Binary64.Within M merger.upper[j])
    (hlower : ∀ j : Fin (n + 1), Binary64.Within M merger.lower[j])
    (hupper' : ∀ j : Fin (n + 1), Binary64.Within M merger'.upper[j])
    (hlower' : ∀ j : Fin (n + 1), Binary64.Within M merger'.lower[j]) : ∃ f, merger.row.Shifted f merger'.row := by
  obtain ⟨i, j, hterms, hk⟩ :=
    exists_shifted_multipliers merges merges' integral_eq normal normal' hu hl hpivoting
  have hzeroSnap : merger'.zeroSnap = merger.zeroSnap := by
    rw [merges.zeroSnap_eq, merges'.zeroSnap_eq, integral_eq]
  have hwithin : Within unitsPerOne merger.zeroSnap := by
    rw [merges.zeroSnap_eq]
    split
    . exact within_zero _
    . exact hsnap
  have hcells' := normal'.cells
  rw [hzeroSnap] at hcells'
  refine ⟨a + i, ?_⟩
  unfold Merger.row
  rw [hzeroSnap]
  exact hk.combine hterms normal.cells hcells' (merges.isFinite_sum hM hupper hlower)
    (merges'.isFinite_sum hM hupper' hlower') hwithin hu hl

end shift

end Merges

end Step

namespace Grid

def InStep (g g' : Grid m n) : Prop :=
  ∀ i : Fin m, ∃ e, Row.Shifted e g[i] g'[i]

namespace InStep

theorem isZero_eq {g g' : Grid m n} (h : g.InStep g') (hi : i < m) (j : Fin n) :
    g'[i][j].isZero = g[i][j].isZero := by
  obtain ⟨e, he⟩ := h ⟨i, hi⟩
  exact (he j).isZero_eq

theorem swap {g g' : Grid m n} (h : g.InStep g') (hi : i < m) (hj : j < m) : InStep (g.swap i j) (g'.swap i j) := by
  intro k
  simp only [getElem_fin, Vector.getElem_swap]
  split
  . exact h ⟨j, hj⟩
  . split
    . exact h ⟨i, hi⟩
    . exact h k

theorem isConsistent_eq {g g' : Grid m (n + 1)} (h : g.InStep g') : g'.isConsistent = g.isConsistent := by
  unfold isConsistent
  rw [Bool.eq_iff_iff, Vector.all_eq_true, Vector.all_eq_true]
  refine forall_congr' fun i => forall_congr' fun hi => ?_
  obtain ⟨e, he⟩ := h ⟨i, hi⟩
  have hrow : g'[i].isContradictory = g[i].isContradictory := he.isContradictory_eq
  rw [hrow]

theorem hasFullPivots_eq {g g' : Grid m (n + 1)} (h : g.InStep g') (hn : n ≤ m) :
    g'.hasFullPivots hn = g.hasFullPivots hn := by
  unfold hasFullPivots
  congr 1
  funext k
  exact congrArg (!·) (h.isZero_eq (pivotRow hn k).isLt k.castSucc)

end InStep

end Grid

namespace Step

variable {settings : SweepSettings} {g g' : Grid m (n + 1)} {c : Fin n} {r : Nat} {h : r + 1 < m} {M : Nat}

theorem merger?_eq_none_iff (hr : r < m) :
    merger? settings g c r h = none ↔ (g[r][c.castSucc].isZero || g[r + 1][c.castSucc].isZero) = true := by
  unfold merger?
  dsimp only
  split
  next hzero => exact iff_of_true rfl hzero
  next hzero =>
    refine iff_of_false ?_ hzero
    split
    . exact Option.some_ne_none _
    . exact Option.some_ne_none _

theorem exists_merger?_iff (hr : r < m) :
    (∃ merger, merger? settings g c r h = some merger) ↔
      g[r][c.castSucc].isZero = false ∧ g[r + 1][c.castSucc].isZero = false := by
  rw [← Option.ne_none_iff_exists', ne_eq, merger?_eq_none_iff hr, Bool.or_eq_true, not_or, Bool.not_eq_true,
    Bool.not_eq_true]

theorem Merges.rows_rel {R : Row (n + 1) → Row (n + 1) → Prop} {upper lower upper' lower' : Row (n + 1)}
    {merger merger' : Merger (n + 1)} (merges : Merges settings upper lower c merger)
    (merges' : Merges settings upper' lower' c merger') (haction : merger'.action = merger.action)
    (hupper : R upper upper') (hlower : R lower lower') :
    R merger.upper merger'.upper ∧ R merger.lower merger'.lower := by
  cases merges.rows with
  | inl hrows =>
    cases merges'.rows with
    | inl hrows' =>
      rw [hrows.right.left, hrows.right.right, hrows'.right.left, hrows'.right.right]
      exact ⟨hupper, hlower⟩
    | inr hrows' =>
      rw [hrows.left, hrows'.left] at haction
      cases haction
  | inr hrows =>
    cases merges'.rows with
    | inl hrows' =>
      rw [hrows.left, hrows'.left] at haction
      cases haction
    | inr hrows' =>
      rw [hrows.right.left, hrows.right.right, hrows'.right.left, hrows'.right.right]
      exact ⟨hlower, hupper⟩

theorem Merges.exists_shifted_of_keepsStep {merger merger' : Merger (n + 1)} (hr : r < m) (hin : g.InStep g')
    (hM : IsCellBound M) (hg : g.Within M) (hg' : g'.Within M) (hpivoting : settings.pairwisePivoting = true)
    (hsnap : Within unitsPerOne settings.zeroSnap) (merges : Merges settings g[r] g[r + 1] c merger)
    (merges' : Merges settings g'[r] g'[r + 1] c merger') (hkeeps : merger.KeepsStep merger' c) :
    (∃ e, merger.row.rescale.1.Shifted e merger'.row.rescale.1) ∧ ∃ e, merger.lower.Shifted e merger'.lower := by
  obtain ⟨hupper, hlower⟩ := merges.within hr hg
  cases hkeeps with
  | inl heq =>
    subst heq
    have hrow := (merges.pairing.within_rescale merges.upperEntry hupper hlower hM merger'.zeroSnap).left
    exact ⟨⟨0, fun j => .refl (hrow j).isFinite⟩, 0, fun j => .refl (hlower j).isFinite⟩
  | inr hkeeps =>
    obtain ⟨alike, normal, normal'⟩ := hkeeps
    obtain ⟨hupper', hlower'⟩ := merges'.within hr hg'
    obtain ⟨⟨a, hu⟩, ⟨b, hl⟩⟩ := merges.rows_rel (R := fun row row' => ∃ e, row.Shifted e row') merges' alike.action_eq
      (hin ⟨r, hr⟩) (hin ⟨r + 1, h⟩)
    obtain ⟨f, hf⟩ := merges.exists_shifted_row merges' alike.integral_eq normal normal' hu hl hpivoting hM hsnap hupper
      hlower hupper' hlower'
    refine ⟨hf.exists_rescale ?_ ?_ alike.divisor, b, hl⟩
    . exact (merges.pairing.within_rescale merges.upperEntry hupper hlower hM _).right
    . exact (merges'.pairing.within_rescale merges'.upperEntry hupper' hlower' hM _).right

theorem inStep_ofPair (hr : r < m) (hin : g.InStep g') (hM : IsCellBound M) (hg : g.Within M) (hg' : g'.Within M)
    (hpivoting : settings.pairwisePivoting = true) (hsnap : Within unitsPerOne settings.zeroSnap)
    (hkeeps : ∀ merger ∈ merger? settings g c r h, ∀ merger' ∈ merger? settings g' c r h, merger.KeepsStep merger' c) :
    (ofPair settings g c r h).grid.InStep (ofPair settings g' c r h).grid := by
  -- Zeros are where they were, so either both grids combine the pair or neither does.
  have hnone : merger? settings g' c r h = none ↔ merger? settings g c r h = none := by
    rw [merger?_eq_none_iff hr, merger?_eq_none_iff hr, hin.isZero_eq hr, hin.isZero_eq h]
  cases hmerger : merger? settings g c r h with
  | none =>
    rw [ofPair_of_merger?_eq_none hr hmerger, ofPair_of_merger?_eq_none hr (hnone.mpr hmerger), hin.isZero_eq hr]
    split
    . exact hin
    . exact hin.swap hr h
  | some merger =>
    obtain ⟨merger', hmerger'⟩ : ∃ merger', merger? settings g' c r h = some merger' := by
      apply Option.ne_none_iff_exists'.mp
      rw [ne_eq, hnone, hmerger]
      exact Option.some_ne_none merger
    obtain ⟨hrow, hlower⟩ := (merges_of_merger? hr hmerger).exists_shifted_of_keepsStep hr hin hM hg hg' hpivoting
      hsnap (merges_of_merger? hr hmerger') (hkeeps merger hmerger merger' hmerger')
    have happlies := applies_ofPair hr hmerger
    have happlies' := applies_ofPair hr hmerger'
    intro i
    by_cases hir : i.val = r
    . obtain rfl : i = ⟨r, hr⟩ := Fin.ext hir
      show ∃ e, Row.Shifted e (ofPair settings g c r h).grid[r] (ofPair settings g' c r h).grid[r]
      rwa [happlies.row, happlies'.row]
    . by_cases hir1 : i.val = r + 1
      . obtain rfl : i = ⟨r + 1, h⟩ := Fin.ext hir1
        show ∃ e, Row.Shifted e (ofPair settings g c r h).grid[r + 1] (ofPair settings g' c r h).grid[r + 1]
        rwa [happlies.below, happlies'.below]
      . show ∃ e, Row.Shifted e (ofPair settings g c r h).grid[i.val] (ofPair settings g' c r h).grid[i.val]
        rw [(effect_ofPair settings g c r hr h).getElem_of_ne i.isLt hir hir1,
          (effect_ofPair settings g' c r hr h).getElem_of_ne i.isLt hir hir1]
        exact hin i

end Step

/-!
### The run
-/

namespace Sweep

structure InStep (s s' : Sweep m n) : Prop where
  grid : s.grid.InStep s'.grid
  openRows : s'.openRows = s.openRows
  pivotColumns : s'.pivotColumns = s.pivotColumns
  freeColumns : s'.freeColumns = s.freeColumns
  ended : s'.ended = s.ended

namespace InStep

variable {s s' : Sweep m n}

theorem record (h : s.InStep s') (hs : s.ended = none) {step step' : Step m (n + 1)}
    (hgrid : step.grid.InStep step'.grid) (hdivisor : step.divisor.isFinite = true)
    (hdivisor' : step'.divisor.isFinite = true) : (s.record step).InStep (s'.record step') where
  grid := by
    rw [grid_record, grid_record]
    exact hgrid
  openRows := by rw [openRows_record, openRows_record, h.openRows]
  pivotColumns := by rw [pivotColumns_record, pivotColumns_record, h.pivotColumns]
  freeColumns := by rw [freeColumns_record, freeColumns_record, h.freeColumns]
  ended := by
    rw [ended_record hs, ended_record (h.ended.trans hs), hdivisor, hdivisor', hgrid.isConsistent_eq]

theorem settle (h : s.InStep s') (c : Fin n) : (s.settle c).InStep (s'.settle c) := by
  have hgrid : (s.settle c).grid.InStep (s'.settle c).grid := by
    rw [grid_settle, grid_settle]
    exact h.grid
  have hended : (s'.settle c).ended = (s.settle c).ended := by rw [ended_settle, ended_settle, h.ended]
  cases settled_settle c s with
  | pivot openRows lt entry openRows_eq pivotColumns_eq freeColumns_eq =>
    cases settled_settle c s' with
    | pivot openRows' lt' entry' openRows_eq' pivotColumns_eq' freeColumns_eq' =>
      refine ⟨hgrid, ?_, ?_, ?_, hended⟩
      . have := h.openRows
        omega
      . rw [pivotColumns_eq, pivotColumns_eq', h.pivotColumns]
      . rw [freeColumns_eq, freeColumns_eq', h.freeColumns]
    | free entry' openRows_eq' pivotColumns_eq' freeColumns_eq' =>
      have hzero := entry' _ lt (h.openRows.trans openRows)
      rw [h.grid.isZero_eq lt, entry] at hzero
      cases hzero
  | free entry openRows_eq pivotColumns_eq freeColumns_eq =>
    cases settled_settle c s' with
    | pivot openRows' lt' entry' openRows_eq' pivotColumns_eq' freeColumns_eq' =>
      have hzero := entry _ lt' (h.openRows.symm.trans openRows')
      rw [h.grid.isZero_eq lt', hzero] at entry'
      cases entry'
    | free entry' openRows_eq' pivotColumns_eq' freeColumns_eq' =>
      refine ⟨hgrid, ?_, ?_, ?_, hended⟩
      . rw [openRows_eq, openRows_eq', h.openRows]
      . rw [pivotColumns_eq, pivotColumns_eq', h.pivotColumns]
      . rw [freeColumns_eq, freeColumns_eq', h.freeColumns]

end InStep

def mergerAt? (settings : SweepSettings) (g : Grid m (n + 1)) (h : n ≤ m) (c : Fin n) (r : Nat) (hr : r + 1 < m) :
    Option (Merger (n + 1)) :=
  Step.merger? settings (before settings g h c r (Nat.lt_of_succ_lt hr)).grid c r hr

def KeepsStepAt (settings : SweepSettings) (g g' : Grid m (n + 1)) (h : n ≤ m) (c : Fin n) (r : Nat)
    (hr : r + 1 < m) : Prop :=
  ∀ merger ∈ mergerAt? settings g h c r hr, ∀ merger' ∈ mergerAt? settings g' h c r hr, merger.KeepsStep merger' c

instance (settings : SweepSettings) (g g' : Grid m (n + 1)) (h : n ≤ m) (c : Fin n) (r : Nat) (hr : r + 1 < m) :
    Decidable (KeepsStepAt settings g g' h c r hr) :=
  inferInstanceAs (Decidable (∀ merger ∈ mergerAt? settings g h c r hr,
    ∀ merger' ∈ mergerAt? settings g' h c r hr, merger.KeepsStep merger' c))

def RunsAlike (settings : SweepSettings) (g g' : Grid m (n + 1)) (h : n ≤ m) : Prop :=
  ∀ (c : Fin n) (r : Nat) (hr : r + 1 < m), Reaches settings g h c r hr → Reaches settings g' h c r hr →
    KeepsStepAt settings g g' h c r hr

instance (settings : SweepSettings) (g g' : Grid m (n + 1)) (h : n ≤ m) : Decidable (RunsAlike settings g g' h) :=
  decidable_of_iff (∀ (c : Fin n) (r : Nat) (_ : r < m) (hr : r + 1 < m), Reaches settings g h c r hr →
      Reaches settings g' h c r hr → KeepsStepAt settings g g' h c r hr)
    ⟨fun h c r hr => h c r (Nat.lt_of_succ_lt hr) hr, fun h c r _ hr => h c r hr⟩

section run

variable {settings : SweepSettings} {g g' : Grid m (n + 1)} {h : n ≤ m} {M : Nat}
variable (hM : Step.IsCellBound M) (hg : g.Within M) (hg' : g'.Within M)
variable (hpivoting : settings.pairwisePivoting = true) (hsnap : Within unitsPerOne settings.zeroSnap)

/-!
`Q c r` is what holds of both sweeps before pair `r` of pass `c`, as long as they go on. It may speak of the two of
them at once, which the invariants of a single sweep do not.
-/

variable {Q : Nat → Nat → Sweep m n → Sweep m n → Prop}
variable (hstep : ∀ (c : Fin n) (r : Nat) (hr : r + 1 < m), Reaches settings g h c r hr → Reaches settings g' h c r hr →
  (before settings g h c r (Nat.lt_of_succ_lt hr)).InStep (before settings g' h c r (Nat.lt_of_succ_lt hr)) →
    Q c r (before settings g h c r (Nat.lt_of_succ_lt hr)) (before settings g' h c r (Nat.lt_of_succ_lt hr)) →
      KeepsStepAt settings g g' h c r hr ∧
        Q c (r + 1) ((before settings g h c r (Nat.lt_of_succ_lt hr)).record (stepAt settings g h c r hr))
          ((before settings g' h c r (Nat.lt_of_succ_lt hr)).record (stepAt settings g' h c r hr)))
variable (hpass : ∀ (c : Fin n) (hm : 0 < m), Q c 0 (upTo settings g h c) (upTo settings g' h c) →
  Q c 0 (before settings g h c 0 hm) (before settings g' h c 0 hm))
variable (hsettle : ∀ c : Fin n, (swept settings g h c).InStep (swept settings g' h c) →
  Q c ((upTo settings g h c).openRows - 1) (swept settings g h c) (swept settings g' h c) →
    Q (c + 1) 0 ((swept settings g h c).settle c) ((swept settings g' h c).settle c))

include hM hg hg' hpivoting hsnap hstep hpass

theorem inStep_before (c : Fin n) (hupTo : (upTo settings g h c).InStep (upTo settings g' h c))
    (hQ : (upTo settings g h c).ended = none → Q c 0 (upTo settings g h c) (upTo settings g' h c)) (hr : r < m)
    (hopen : r ≤ (upTo settings g h c).openRows - 1) :
    (before settings g h c r hr).InStep (before settings g' h c r hr) ∧
      ((before settings g h c r hr).ended = none →
        Q c r (before settings g h c r hr) (before settings g' h c r hr)) := by
  induction r with
  | zero =>
    refine ⟨⟨hupTo.grid, hupTo.openRows, hupTo.pivotColumns, hupTo.freeColumns, hupTo.ended⟩, ?_⟩
    exact fun hended => hpass c hr (hQ hended)
  | succ r ih =>
    obtain ⟨hin, hQ⟩ := ih (by omega) (by omega)
    by_cases hs : (before settings g h c r (Nat.lt_of_succ_lt hr)).ended = none
    . have hs' := hin.ended.trans hs
      have hopen' := hupTo.openRows
      have reached : Reaches settings g h c r hr := ⟨by omega, hs⟩
      have reached' : Reaches settings g' h c r hr := ⟨by omega, hs'⟩
      obtain ⟨hkeeps, hnext⟩ := hstep c r hr reached reached' hin (hQ hs)
      rw [before_succ c hr hs, before_succ c hr hs']
      refine ⟨?_, fun _ => hnext⟩
      apply hin.record hs _ (isFinite_divisor_stepAt hM hg c hr reached) (isFinite_divisor_stepAt hM hg' c hr reached')
      exact Step.inStep_ofPair (Nat.lt_of_succ_lt hr) hin.grid hM (within_before hM hg c (by omega) (by omega))
        (within_before hM hg' c (by omega) (by omega)) hpivoting hsnap hkeeps
    . have hs' : (before settings g' h c r (Nat.lt_of_succ_lt hr)).ended ≠ none := by rwa [hin.ended]
      rw [before_succ_of_ended_ne_none c hr hs, before_succ_of_ended_ne_none c hr hs']
      exact ⟨hin, fun hended => absurd hended hs⟩

include hsettle

theorem inStep_upTo (hin : g.InStep g') (hQ : Q 0 0 (start g h) (start g' h)) (hp : p ≤ n) :
    (upTo settings g h p).InStep (upTo settings g' h p) ∧
      ((upTo settings g h p).ended = none → Q p 0 (upTo settings g h p) (upTo settings g' h p)) := by
  induction p with
  | zero => exact ⟨⟨hin, rfl, rfl, rfl, rfl⟩, fun _ => hQ⟩
  | succ p ih =>
    obtain ⟨hin, hQ⟩ := ih (by omega)
    by_cases hs : (upTo settings g h p).ended = none
    . have hs' := hin.ended.trans hs
      obtain ⟨hswept, hQ⟩ : (swept settings g h ⟨p, hp⟩).InStep (swept settings g' h ⟨p, hp⟩) ∧
          ((swept settings g h ⟨p, hp⟩).ended = none → Q p ((upTo settings g h p).openRows - 1)
            (swept settings g h ⟨p, hp⟩) (swept settings g' h ⟨p, hp⟩)) := by
        have hlowest := inStep_before hM hg hg' hpivoting hsnap hstep hpass ⟨p, hp⟩ hin hQ (lowest_lt h ⟨p, hp⟩ _)
          (Nat.le_refl _)
        unfold swept
        simp only [hin.openRows]
        exact hlowest
      rw [upTo_succ_of_ended ⟨p, hp⟩ hs, upTo_succ_of_ended ⟨p, hp⟩ hs', hswept.ended]
      cases hended : (swept settings g h ⟨p, hp⟩).ended with
      | some e =>
        rw [Option.isSome_some, if_pos rfl, if_pos rfl]
        exact ⟨hswept, fun hnone => absurd (hended.symm.trans hnone) (Option.some_ne_none e)⟩
      | none =>
        rw [Option.isSome_none, if_neg Bool.false_ne_true, if_neg Bool.false_ne_true]
        exact ⟨hswept.settle ⟨p, hp⟩, fun _ => hsettle ⟨p, hp⟩ hswept (hQ hended)⟩
    . have hs' : (upTo settings g' h p).ended ≠ none := by rwa [hin.ended]
      rw [upTo_succ_of_ended_ne_none ⟨p, hp⟩ hs, upTo_succ_of_ended_ne_none ⟨p, hp⟩ hs']
      exact ⟨hin, fun hended => absurd hended hs⟩

theorem inStep_run_of_step (hin : g.InStep g') (hQ : Q 0 0 (start g h) (start g' h)) :
    (run settings g h).InStep (run settings g' h) := by
  rw [← upTo_length, ← upTo_length]
  exact (inStep_upTo hM hg hg' hpivoting hsnap hstep hpass hsettle hin hQ (Nat.le_refl n)).left

omit hstep hpass hsettle in
theorem inStep_run (halike : RunsAlike settings g g' h) (hin : g.InStep g') :
    (run settings g h).InStep (run settings g' h) := by
  apply inStep_run_of_step (Q := fun _ _ _ _ => True) hM hg hg' hpivoting hsnap
  case hstep => exact fun c r hr reached reached' _ _ => ⟨halike c r hr reached reached', trivial⟩
  case hpass => exact fun _ _ _ => trivial
  case hsettle => exact fun _ _ _ => trivial
  case hin => exact hin
  case hQ => trivial

end run

end Sweep

end RowSweep
