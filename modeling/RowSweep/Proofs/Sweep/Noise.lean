import RowSweep.Proofs.Multipliers.Noise
import RowSweep.Proofs.Sweep.Bounds
import RowSweep.Proofs.Sweep.Merger

/-!
This module contains the rounding noise that the steps of a sweep leave in the rows that they combine. Whole
multipliers are chosen by the entries of one column, so the other cells of their rows need not be integers.
-/

namespace RowSweep

open Binary64

attribute [local irreducible] unitsPerOne rangeEnd

namespace Step

variable {settings : SweepSettings} {c : Fin n} {M : Nat}

namespace Pairing

variable {upper lower : Row (n + 1)} {k : Multipliers} (pairing : Pairing settings upper lower c k)
variable (entry : upper[c.castSucc].isZero = false)
variable (hupper : ∀ j : Fin (n + 1), Binary64.Within M upper[j])
variable (hlower : ∀ j : Fin (n + 1), Binary64.Within M lower[j])

include pairing in
theorem staysExact (hk : k.integral = true) : k.staysExact upper lower = true := by
  cases pairing with
  | scaled => cases hk
  | whole ratio entries exact => exact exact

include pairing entry hupper hlower

theorem isFinite_sum (hM : IsCellBound M) (j : Fin (n + 1)) :
    (upper[j] * k.target + lower[j] * k.sign.apply k.copy).isFinite = true := by
  have hcell := (within_combine pairing entry hupper hlower hM .zero j).isFinite
  rwa [Multipliers.getElem_combine, Multipliers.combineCell_zero] at hcell

variable (hpositive : settings.zeroSnap.isPositive = true) (hlt : settings.zeroSnap.lt .one = true)

include hpositive hlt

theorem isClean_combine_iff (hM : IsCellBound M) (j : Fin (n + 1)) :
    k.IsClean settings.zeroSnap upper[j] lower[j]
        (k.combine (if k.integral then .zero else settings.zeroSnap) upper lower)[j] ↔
      ¬ (k.integral = true ∧ k.IsSmall settings.zeroSnap upper[j] lower[j] ∧
        (upper[j] * k.target + lower[j] * k.sign.apply k.copy).toRat ≠ k.exactCell upper[j] lower[j]) := by
  rw [Multipliers.getElem_combine]
  exact Multipliers.isClean_combineCell_iff hpositive hlt (isFinite_sum pairing entry hupper hlower hM j)

theorem isClean_combine_of_isInteger (hM : IsCellBound M) (lowerEntry : lower[c.castSucc].isZero = false)
    (integers : upper.IsInteger) (integers' : lower.IsInteger) (j : Fin (n + 1)) :
    k.IsClean settings.zeroSnap upper[j] lower[j]
      (k.combine (if k.integral then .zero else settings.zeroSnap) upper lower)[j] := by
  cases hk : k.integral with
  | false =>
    have hiff := isClean_combine_iff pairing entry hupper hlower hpositive hlt hM j
    rw [hk] at hiff
    rw [hiff]
    simp
  | true =>
    obtain ⟨t, w, hguarded⟩ := Multipliers.exists_isGuarded (pairing.integral?_eq hk) entry lowerEntry integers
      integers' (pairing.staysExact hk)
    rw [if_pos rfl, Multipliers.getElem_combine, Multipliers.combineCell_zero]
    exact hguarded.isClean hpositive hlt integers integers' j

end Pairing

end Step

namespace Sweep

structure MergesAt (settings : SweepSettings) (g : Grid m (n + 1)) (h : n ≤ m) (c : Fin n) (r : Nat) (hr : r + 1 < m)
    (merger : Merger (n + 1)) : Prop where
  reached : Reaches settings g h c r hr
  merger?_eq : Step.merger? settings (before settings g h c r (Nat.lt_of_succ_lt hr)).grid c r hr = some merger

variable {settings : SweepSettings} {g : Grid m (n + 1)} {h : n ≤ m}

theorem exists_mergesAt_of_mem_trace {step : Step m (n + 1)} (hmem : step ∈ (run settings g h).trace)
    (haction : step.action = .combine ∨ step.action = .swapCombine) :
    ∃ (c : Fin n) (r : Nat) (hr : r + 1 < m) (merger : Merger (n + 1)),
      MergesAt settings g h c r hr merger ∧ step = stepAt settings g h c r hr := by
  obtain ⟨c, r, hr, reached, rfl⟩ := exists_of_mem_trace step hmem
  cases hmerger : Step.merger? settings (before settings g h c r (Nat.lt_of_succ_lt hr)).grid c r hr with
  | some merger => exact ⟨c, r, hr, merger, ⟨reached, hmerger⟩, rfl⟩
  | none =>
    unfold stepAt at haction
    rw [Step.ofPair_of_merger?_eq_none (Nat.lt_of_succ_lt hr) hmerger] at haction
    split at haction
    next => simp [Step.plain] at haction
    next => simp [Step.plain] at haction

end Sweep

open Sweep in
theorem clean_of_sweep (settings : SweepSettings) (g : Grid m (n + 1)) (h : n ≤ m) (hg : g.IsBounded)
    (hpositive : settings.zeroSnap.isPositive = true) (hlt : settings.zeroSnap.lt .one = true) :
    (∀ step ∈ (run settings g h).trace, step.action = .combine ∨ step.action = .swapCombine →
      ∃ (c : Fin n) (r : Nat) (hr : r + 1 < m) (merger : Merger (n + 1)),
        MergesAt settings g h c r hr merger ∧ step = stepAt settings g h c r hr) ∧
    ∀ (c : Fin n) (r : Nat) (hr : r + 1 < m) (merger : Merger (n + 1)), MergesAt settings g h c r hr merger →
      let step := stepAt settings g h c r hr
      let k := merger.multipliers
      step ∈ (run settings g h).trace ∧ step.Applies merger r (Nat.lt_of_succ_lt hr) hr ∧
      (∀ j : Fin (n + 1), k.IsClean settings.zeroSnap merger.upper[j] merger.lower[j] merger.row[j] ↔
        ¬ (k.integral = true ∧ k.IsSmall settings.zeroSnap merger.upper[j] merger.lower[j] ∧
          (merger.upper[j] * k.target + merger.lower[j] * k.sign.apply k.copy).toRat ≠
            k.exactCell merger.upper[j] merger.lower[j])) ∧
      (merger.upper.IsInteger → merger.lower.IsInteger →
        ∀ j : Fin (n + 1), k.IsClean settings.zeroSnap merger.upper[j] merger.lower[j] merger.row[j]) ∧
      (settings.zeroSnap.lt (.twoPow (-1)) = true →
        ∀ j : Fin (n + 1), k.IsSmall settings.zeroSnap merger.upper[j] merger.lower[j] →
          ((merger.upper[j] * k.target + merger.lower[j] * k.sign.apply k.copy).toRat =
              k.exactCell merger.upper[j] merger.lower[j] ↔
            k.termError merger.upper[j] merger.lower[j] = 0)) := by
  refine ⟨fun step hmem haction => exists_mergesAt_of_mem_trace hmem haction, ?_⟩
  intro c r hr merger hmergesAt step k
  obtain ⟨reached, hmerger⟩ := hmergesAt
  obtain ⟨M, hM, hwithin⟩ := hg.exists_isCellBound
  have hlow := reached.lt
  have hgrid : (before settings g h c r (Nat.lt_of_succ_lt hr)).grid.Within M :=
    within_before hM hwithin c (Nat.lt_of_succ_lt hr) (by omega)
  have hmerges := Step.merges_of_merger? (Nat.lt_of_succ_lt hr) hmerger
  obtain ⟨hupper, hlower⟩ := hmerges.within (Nat.lt_of_succ_lt hr) hgrid
  have hrow : merger.row = k.combine (if k.integral then .zero else settings.zeroSnap) merger.upper merger.lower := by
    rw [Merger.row, hmerges.zeroSnap_eq]
  rw [hrow]
  refine ⟨stepAt_mem_trace hr reached (isFinite_divisor_stepAt hM hwithin c hr reached),
    Step.applies_ofPair (Nat.lt_of_succ_lt hr) hmerger, ?_, ?_, ?_⟩
  . exact hmerges.pairing.isClean_combine_iff hmerges.upperEntry hupper hlower hpositive hlt hM
  . exact hmerges.pairing.isClean_combine_of_isInteger hmerges.upperEntry hupper hlower hpositive hlt hM
      hmerges.lowerEntry
  . intro hhalf j hsmall
    exact Multipliers.toRat_eq_exactCell_iff hpositive hlt
      (hmerges.pairing.isFinite_sum hmerges.upperEntry hupper hlower hM j) hhalf hsmall

open Sweep

def quarterLines : Grid 2 3 :=
  #v[#v[.one, .twoPow (-2), .zero], #v[.ofNat 3, .one, .one]]

theorem clean_of_quarterLines :
    quarterLines.IsBounded ∧
      ∃ merger, MergesAt Thresholds.default.sweep quarterLines (Nat.le_refl 2) 0 0 (by decide) merger ∧
        merger.multipliers.integral = true ∧
        merger.multipliers.IsClean Thresholds.default.sweep.zeroSnap merger.upper[1] merger.lower[1] merger.row[1] := by
  have hbounded : quarterLines.IsBounded := by decide +kernel
  have hsum : (Step.merger? Thresholds.default.sweep quarterLines 0 0 (by decide)).any (fun merger =>
      merger.multipliers.integral && decide (
        (merger.upper[1] * merger.multipliers.target +
          merger.lower[1] * merger.multipliers.sign.apply merger.multipliers.copy).toRat =
            merger.multipliers.exactCell merger.upper[1] merger.lower[1])) = true := by
    decide +kernel
  obtain ⟨merger, hmerger, hexact⟩ := Option.any_eq_true _ _ |>.mp hsum
  rw [Bool.and_eq_true, decide_eq_true_iff] at hexact
  have hmergesAt : MergesAt Thresholds.default.sweep quarterLines (Nat.le_refl 2) 0 0 (by decide) merger :=
    ⟨⟨by decide +kernel, by decide +kernel⟩, hmerger⟩
  obtain ⟨-, hcells⟩ := clean_of_sweep Thresholds.default.sweep quarterLines (Nat.le_refl 2) hbounded
    (by decide +kernel) (by decide +kernel)
  obtain ⟨-, -, hclean, -⟩ := hcells 0 0 (by decide) merger hmergesAt
  refine ⟨hbounded, merger, hmergesAt, hexact.left, (hclean 1).mpr ?_⟩
  exact fun hnoise => hnoise.right.right hexact.right

/--
The equations `x + 0.1 * y = 0` and `(2 ^ 50 + 1) * x + z * y = 1`, where `z` is a little less than a tenth of
`2 ^ 50 + 1`.
-/
def tenthLines : Grid 2 3 :=
  let tenth := (Decimal.mk 1 (-1)).toBinary64 false
  let large := Binary64.ofNat 1125899906842625
  #v[#v[.one, tenth, .zero], #v[large, tenth * large - .ofNat 8, .one]]

theorem not_clean_of_tenthLines :
    tenthLines.IsBounded ∧ (Binary64.twoPow (-52)).le Thresholds.default.sweep.zeroSnap = true ∧
      Thresholds.default.sweep.zeroSnap.lt .one = true ∧
      ∃ merger, MergesAt Thresholds.default.sweep tenthLines (Nat.le_refl 2) 0 0 (by decide) merger ∧
        merger.row[1] = .ofNat 8 ∧
        ¬ merger.multipliers.IsClean Thresholds.default.sweep.zeroSnap merger.upper[1] merger.lower[1]
          merger.row[1] := by
  -- A tenth of `2 ^ 50 + 1` is rounded, and what is left of it is neither exact nor above the noise.
  refine ⟨by decide +kernel, by decide +kernel, by decide +kernel, ?_⟩
  have hnoise : (Step.merger? Thresholds.default.sweep tenthLines 0 0 (by decide)).any (fun merger =>
      decide (merger.row[1] = .ofNat 8 ∧ ¬ merger.multipliers.IsClean Thresholds.default.sweep.zeroSnap
        merger.upper[1] merger.lower[1] merger.row[1])) = true := by
    decide +kernel
  obtain ⟨merger, hmerger, hnoise⟩ := Option.any_eq_true _ _ |>.mp hnoise
  rw [decide_eq_true_iff] at hnoise
  exact ⟨merger, ⟨⟨by decide +kernel, by decide +kernel⟩, hmerger⟩, hnoise⟩

end RowSweep
