import RowSweep.Proofs.Grid.Reduced
import RowSweep.Proofs.Sweep.Passes

/-!
This module contains when a sweep gives up: after the first step that leaves a contradictory row behind, and only
then. A contradictory row that was there from the start is found by the first step.
-/

namespace RowSweep

namespace Grid

theorem isConsistent_eq_false_iff {g : Grid m (n + 1)} :
    g.isConsistent = false ↔ ∃ (i : Nat) (hi : i < m), g[i].isContradictory = true := by
  unfold isConsistent
  rw [Vector.all_eq_false]
  simp

end Grid

theorem Row.isZero_of_isContradictory {row : Row (n + 1)} (h : row.isContradictory = true) (c : Fin n) :
    row[c.castSucc].isZero = true := by
  unfold isContradictory at h
  rw [Bool.and_eq_true, Grid.isBlank_iff] at h
  exact h.left c

namespace Step

variable {settings : SweepSettings} {g : Grid m (n + 1)} {c : Fin n} {r : Nat} {hr : r < m} {h : r + 1 < m}
variable {step : Step m (n + 1)}

theorem Effect.isConsistent_eq_false (hstep : Effect settings g c r hr h step) (hg : g.isConsistent = false) :
    step.grid.isConsistent = false := by
  -- A contradictory row has a zero in the column of the pass, so a step at most moves it.
  rw [Grid.isConsistent_eq_false_iff] at hg ⊢
  obtain ⟨i, hi, hrow⟩ := hg
  have hzero := Row.isZero_of_isContradictory hrow c
  by_cases hupper : i = r
  . subst hupper
    cases hstep with
    | skip => exact ⟨i, hi, hrow⟩
    | swap hentry => simp [hentry] at hzero
    | combine hentry => simp [hentry] at hzero
    | swapCombine hentry => simp [hentry] at hzero
  . by_cases hlower : i = r + 1
    . subst hlower
      cases hstep with
      | skip => exact ⟨r + 1, hi, hrow⟩
      | swap =>
        refine ⟨r, hr, ?_⟩
        simpa [plain] using hrow
      | combine _ hentry => simp [hentry] at hzero
      | swapCombine _ hentry => simp [hentry] at hzero
    . refine ⟨i, hi, ?_⟩
      rwa [hstep.getElem_of_ne hi hupper hlower]

end Step

namespace Sweep

variable {settings : SweepSettings} {g : Grid m (n + 1)} {h : n ≤ m}

structure Checked (s : Sweep m n) : Prop where
  steps : s.ended = none → ∀ step ∈ s.trace, step.grid.isConsistent = true
  grid : s.ended = none → s.trace.size ≠ 0 → s.grid.isConsistent = true

theorem Checked.record {s : Sweep m n} (hs : s.Checked) (hopen : s.ended = none) (step : Step m (n + 1)) :
    (s.record step).Checked := by
  have hended := ended_record hopen step
  have hconsistent : (s.record step).ended = none → step.grid.isConsistent = true := by
    intro hnone
    rw [hnone] at hended
    cases hgrid : step.grid.isConsistent with
    | true => rfl
    | false =>
      rw [hgrid] at hended
      split at hended <;> cases hended
  constructor
  case steps =>
    intro hnone taken hmem
    rw [trace_record] at hmem
    split at hmem
    next =>
      cases Array.mem_push.mp hmem with
      | inl hmem => exact hs.steps hopen taken hmem
      | inr heq =>
        rw [heq]
        exact hconsistent hnone
    next => exact hs.steps hopen taken hmem
  case grid =>
    intro hnone _
    rw [grid_record]
    exact hconsistent hnone

theorem Checked.settle {s : Sweep m n} (hs : s.Checked) (c : Fin n) : (s.settle c).Checked := by
  constructor
  case steps =>
    rw [ended_settle, trace_settle]
    exact hs.steps
  case grid =>
    rw [ended_settle, trace_settle, grid_settle]
    exact hs.grid

theorem checked_upTo (hp : p ≤ n) : (upTo settings g h p).Checked := by
  apply upTo_of_step (P := Checked)
  case hstep =>
    intro c r hr reached hs
    exact hs.record reached.ended _
  case hstart => constructor <;> simp [start]
  case hpass =>
    intro c hm hs
    exact ⟨hs.steps, hs.grid⟩
  case hsettle =>
    intro c hs
    apply hs.settle
  case hp => exact hp

theorem checked_before (c : Fin n) (hr : r < m) (hopen : r ≤ (upTo settings g h c).openRows - 1) :
    (before settings g h c r hr).Checked := by
  apply before_of_step (P := Checked) c
  case hstep =>
    intro r hr reached hs
    exact hs.record reached.ended _
  case hpass =>
    intro hm
    have hs : (upTo settings g h c).Checked := checked_upTo (Nat.le_of_lt c.isLt)
    exact ⟨hs.steps, hs.grid⟩
  case hopen => exact hopen

theorem size_trace_ne_zero (hn : 2 ≤ n) (hs : (run settings g h).ended = none) :
    (run settings g h).trace.size ≠ 0 := by
  have horder := inOrder_of_ended hs
  have hpasses := passes_run hs
  have hfirst := horder.stepsIn_eq 0 (by omega) (Or.inr hs)
  intro hempty
  rw [Array.size_eq_zero_iff] at hempty
  simp [stepsIn, hempty] at hfirst
  omega

structure FailsFast (s : Sweep m n) : Prop where
  last : ∃ earlier step, s.trace.toList = earlier ++ [step] ∧ (∀ taken ∈ earlier, taken.grid.isConsistent = true) ∧
    (step.grid.isConsistent = false ↔ s.ended.isSome = true)
  grid : s.grid.isConsistent = false ↔ s.ended.isSome = true
  settled : s.ended.isSome = true →
    s.passes = s.pivotColumns.length + s.freeColumns.length + 1 ∧
      (s.pivotColumns ++ s.freeColumns).Perm (List.range (s.passes - 1))

theorem failsFast_of_ended (hn : 2 ≤ n) (hs : (run settings g h).ended = none) : (run settings g h).FailsFast := by
  have hsize := size_trace_ne_zero hn hs
  have hchecked : (run settings g h).Checked := by
    rw [← upTo_length]
    exact checked_upTo (Nat.le_refl n)
  constructor
  case last =>
    have hne : (run settings g h).trace.toList ≠ [] := by simpa using hsize
    refine ⟨_, _, (List.dropLast_concat_getLast hne).symm, ?_, ?_⟩
    . intro taken hmem
      exact hchecked.steps hs taken (Array.mem_toList_iff.mp (List.mem_of_mem_dropLast hmem))
    . rw [hchecked.steps hs _ (Array.mem_toList_iff.mp (List.getLast_mem hne))]
      simp [hs]
  case grid => simp [hchecked.grid hs hsize, hs]
  case settled => simp [hs]

theorem StoppedAt.failsFast {hr : r + 1 < m} (hstop : StoppedAt (run settings g h) settings g h c r hr)
    (hs : (run settings g h).ended = some .contradiction) : (run settings g h).FailsFast := by
  have hopen := hstop.reached.lt
  have hc := ended_of_before c _ hstop.reached.ended
  have hsettled := settled_upTo (Nat.le_of_lt c.isLt) hc
  have hchecked : (before settings g h c r (Nat.lt_of_succ_lt hr)).Checked := checked_before c _ (by omega)
  constructor
  case last =>
    refine ⟨(before settings g h c r (Nat.lt_of_succ_lt hr)).trace.toList, stepAt settings g h c r hr, ?_, ?_, ?_⟩
    . rw [hstop.trace_eq, Array.toList_push]
    . intro taken hmem
      exact hchecked.steps hstop.reached.ended taken (Array.mem_toList_iff.mp hmem)
    . rw [← hstop.grid_eq, isConsistent_of_contradiction hs]
      simp [hs]
  case grid => simp [isConsistent_of_contradiction hs, hs]
  case settled =>
    intro _
    rw [hstop.passes_eq, hstop.pivotColumns_eq, hstop.freeColumns_eq]
    have hlength := hsettled.length_eq
    rw [List.length_append, List.length_range] at hlength
    exact ⟨by omega, hsettled⟩

theorem failsFast_run (hn : 2 ≤ n) (hs : (run settings g h).ended ≠ some .divisorOverflow) :
    (run settings g h).FailsFast := by
  cases hended : (run settings g h).ended with
  | none => exact failsFast_of_ended hn hended
  | some e =>
    have hcontradiction : (run settings g h).ended = some .contradiction := by
      cases e with
      | contradiction => exact hended
      | divisorOverflow => exact absurd hended hs
    obtain ⟨c, r, hr, hstop⟩ := exists_stoppedAt (by simp [hended]) hs
    exact hstop.failsFast hcontradiction

theorem size_trace_of_isConsistent (hn : 2 ≤ n) (hs : (run settings g h).ended ≠ some .divisorOverflow)
    (hg : g.isConsistent = false) : (run settings g h).trace.size = 1 := by
  -- A contradictory row stays whatever is done, so the first step that is looked at ends the sweep.
  have hkept : ∀ (c : Fin n) (r : Nat) (hr : r + 1 < m), Reaches settings g h c r hr →
      (before settings g h c r (Nat.lt_of_succ_lt hr)).grid.isConsistent = false →
        (stepAt settings g h c r hr).grid.isConsistent = false := by
    intro c r hr _ hgrid
    exact (Step.effect_ofPair settings _ c r (Nat.lt_of_succ_lt hr) hr).isConsistent_eq_false hgrid
  have hfinal : (run settings g h).grid.isConsistent = false :=
    grid_run_of_step (P := fun grid => grid.isConsistent = false) hg hkept
  have hended : (run settings g h).ended ≠ none := by
    rw [(failsFast_run hn hs).grid] at hfinal
    simpa [Option.isSome_iff_ne_none] using hfinal
  obtain ⟨c, r, hr, hstop⟩ := exists_stoppedAt hended hs
  have hopen := hstop.reached.lt
  have hgrid : (before settings g h c r (Nat.lt_of_succ_lt hr)).grid.isConsistent = false := by
    apply grid_before_of_step (P := fun grid => grid.isConsistent = false) c (hkept c)
    . exact grid_upTo_of_step (P := fun grid => grid.isConsistent = false) hg hkept (Nat.le_of_lt c.isLt)
    . omega
  have hchecked : (before settings g h c r (Nat.lt_of_succ_lt hr)).Checked := checked_before c _ (by omega)
  rw [hstop.trace_eq, Array.size_push]
  apply Classical.byContradiction
  intro hsize
  have hconsistent := hchecked.grid hstop.reached.ended (by omega)
  rw [hgrid] at hconsistent
  cases hconsistent

end Sweep

end RowSweep
