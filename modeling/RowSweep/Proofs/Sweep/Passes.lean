import RowSweep.Proofs.Sweep.Run

/-!
This module contains the bookkeeping of passes: which steps each pass takes and in which order, where a sweep stops,
and which columns it has settled by then. None of it depends on what the arithmetic does.
-/

namespace RowSweep

namespace Step

variable {settings : SweepSettings} {g : Grid m (n + 1)} {c : Fin n} {r : Nat} {hr : r < m} {h : r + 1 < m}
variable {step : Step m (n + 1)}

theorem Effect.pass_eq (hstep : Effect settings g c r hr h step) : step.pass = c := by
  cases hstep <;> rfl

theorem Effect.sourceRow_eq (hstep : Effect settings g c r hr h step) : step.sourceRow = r + 1 := by
  cases hstep <;> rfl

end Step

namespace Sweep

variable {settings : SweepSettings} {g : Grid m (n + 1)} {h : n ≤ m}

@[simp]
theorem passes_record (s : Sweep m n) (step : Step m (n + 1)) : (s.record step).passes = s.passes := by
  unfold record
  dsimp only
  split
  next => split <;> rfl
  next => rfl

@[simp]
theorem passes_settle (c : Fin n) (s : Sweep m n) : (s.settle c).passes = s.passes := by
  unfold settle
  split
  next => rfl
  next =>
    dsimp only
    split <;> rfl

theorem passes_pairs (s : Sweep m n) (c : Fin n) (hk : k < m) :
    (s.pairs settings c k hk).passes = s.passes := by
  induction k with
  | zero => rfl
  | succ k ih =>
    by_cases hs : (s.pairs settings c k (Nat.lt_of_succ_lt hk)).ended = none
    . rw [pairs_succ hk hs, passes_record]
      apply ih
    . rw [pairs_succ_of_ended hk hs]
      apply ih

theorem passes_before (c : Fin n) (hr : r < m) :
    (before settings g h c r hr).passes = (upTo settings g h c).passes + 1 := by
  unfold before
  apply passes_pairs

theorem passes_upTo (hp : p ≤ n) (hs : (upTo settings g h p).ended = none) :
    (upTo settings g h p).passes = p := by
  induction p with
  | zero => rfl
  | succ p ih =>
    have hended := ended_upTo_succ ⟨p, hp⟩ hs
    have ih := ih (by omega) hended.left
    rw [upTo_succ_eq_settle ⟨p, hp⟩ hs, passes_settle]
    unfold swept
    rw [passes_before, ih]

/-!
### Where a sweep stops
-/

theorem exists_stop_before (c : Fin n) (hc : (upTo settings g h c).ended = none) (hk : k < m)
    (hopen : k ≤ (upTo settings g h c).openRows - 1) (hs : (before settings g h c k hk).ended ≠ none) :
    ∃ (r : Nat) (hr : r + 1 < m), Reaches settings g h c r hr ∧ before settings g h c k hk =
      (before settings g h c r (Nat.lt_of_succ_lt hr)).record (stepAt settings g h c r hr) := by
  induction k with
  | zero => exact absurd hc hs
  | succ k ih =>
    by_cases hended : (before settings g h c k (Nat.lt_of_succ_lt hk)).ended = none
    . exact ⟨k, hk, ⟨by omega, hended⟩, before_succ c hk hended⟩
    . rw [before_succ_of_ended_ne_none c hk hended]
      exact ih _ (by omega) hended

theorem exists_stop_upTo (hp : p ≤ n) (hs : (upTo settings g h p).ended ≠ none) :
    ∃ (c : Fin n) (r : Nat) (hr : r + 1 < m), Reaches settings g h c r hr ∧ upTo settings g h p =
      (before settings g h c r (Nat.lt_of_succ_lt hr)).record (stepAt settings g h c r hr) := by
  -- A sweep that does not go through all its columns stops with one of the steps that it comes to.
  induction p with
  | zero => exact absurd rfl hs
  | succ p ih =>
    by_cases hended : (upTo settings g h p).ended = none
    . rw [upTo_succ_of_ended ⟨p, hp⟩ hended] at hs ⊢
      by_cases hswept : (swept settings g h ⟨p, hp⟩).ended = none
      . simp [hswept] at hs
      . have hstop := exists_stop_before ⟨p, hp⟩ hended (lowest_lt h ⟨p, hp⟩ _) (Nat.le_refl _) hswept
        rw [if_pos (by simpa [Option.isSome_iff_ne_none] using hswept)]
        exact ⟨⟨p, hp⟩, hstop⟩
    . rw [upTo_succ_of_ended_ne_none ⟨p, hp⟩ hended]
      exact ih (by omega) hended

theorem exists_stop_run (hs : (run settings g h).ended ≠ none) :
    ∃ (c : Fin n) (r : Nat) (hr : r + 1 < m), Reaches settings g h c r hr ∧ run settings g h =
      (before settings g h c r (Nat.lt_of_succ_lt hr)).record (stepAt settings g h c r hr) := by
  rw [← upTo_length] at hs ⊢
  exact exists_stop_upTo (Nat.le_refl n) hs

/-!
### Settled columns
-/

inductive Settles (c : Fin n) (s t : Sweep m n) : Prop where
  | stopped (ended : t.ended ≠ none) (pivots : t.pivotColumns = s.pivotColumns) (frees : t.freeColumns = s.freeColumns)
  | pivot (ended : t.ended = none) (pivots : t.pivotColumns = s.pivotColumns ++ [c.val])
      (frees : t.freeColumns = s.freeColumns)
  | free (ended : t.ended = none) (pivots : t.pivotColumns = s.pivotColumns)
      (frees : t.freeColumns = s.freeColumns ++ [c.val])

theorem settles_upTo_succ (c : Fin n) (hs : (upTo settings g h c).ended = none) :
    Settles c (upTo settings g h c) (upTo settings g h (c + 1)) := by
  have hframe := swept_frame settings g h c
  by_cases hended : (upTo settings g h (c + 1)).ended = none
  . have hsettled := settled_settle c (swept settings g h c)
    rw [← upTo_succ_eq_settle c hended] at hsettled
    cases hsettled with
    | pivot _ _ _ _ hpivots hfrees =>
      apply Settles.pivot hended
      . rw [hpivots, hframe.right.left]
      . rw [hfrees, hframe.right.right]
    | free _ _ hpivots hfrees =>
      apply Settles.free hended
      . rw [hpivots, hframe.right.left]
      . rw [hfrees, hframe.right.right]
  . have hswept : upTo settings g h (c + 1) = swept settings g h c := by
      rw [upTo_succ_of_ended c hs] at hended ⊢
      split
      next => rfl
      next hnone => simp_all
    apply Settles.stopped hended
    . rw [hswept, hframe.right.left]
    . rw [hswept, hframe.right.right]

theorem settled_upTo (hp : p ≤ n) (hs : (upTo settings g h p).ended = none) :
    ((upTo settings g h p).pivotColumns ++ (upTo settings g h p).freeColumns).Perm (List.range p) := by
  -- After `p` passes the first `p` columns are settled, each once.
  induction p with
  | zero => simp [upTo_zero, start]
  | succ p ih =>
    have hended := ended_upTo_succ ⟨p, hp⟩ hs
    have ih := ih (by omega) hended.left
    rw [List.range_succ]
    apply List.Perm.trans _ (ih.append_right [p])
    cases settles_upTo_succ ⟨p, hp⟩ hended.left with
    | stopped hne => exact absurd hs hne
    | pivot _ hpivots hfrees =>
      rw [hpivots, hfrees, List.append_assoc, List.append_assoc]
      apply List.Perm.append_left
      apply List.perm_append_comm
    | free _ hpivots hfrees => rw [hpivots, hfrees, List.append_assoc]

theorem lt_of_mem_pivotColumns (hp : p ≤ n) (hs : (upTo settings g h p).ended = none)
    (hc : c ∈ (upTo settings g h p).pivotColumns) : c < p := by
  rw [← List.mem_range, ← (settled_upTo hp hs).mem_iff]
  apply List.mem_append_left _ hc

theorem countP_pivotColumns (hq : q ≤ p) (hp : p ≤ n) (hs : (upTo settings g h q).ended = none) :
    (upTo settings g h p).pivotColumns.countP (· < q) = (upTo settings g h q).pivotColumns.length := by
  -- Later passes do not add to the pivots before column `q`.
  induction p with
  | zero =>
    have hzero : q = 0 := by omega
    subst hzero
    rfl
  | succ p ih =>
    cases Nat.eq_or_lt_of_le hq with
    | inl heq =>
      subst heq
      rw [List.countP_eq_length]
      intro c hc
      simpa using lt_of_mem_pivotColumns hp hs hc
    | inr hlt =>
      have ih := ih (by omega) (by omega)
      by_cases hended : (upTo settings g h p).ended = none
      . rw [← ih]
        cases settles_upTo_succ ⟨p, hp⟩ hended with
        | stopped _ hpivots => rw [hpivots]
        | pivot _ hpivots =>
          rw [hpivots, List.countP_append]
          simp
          omega
        | free _ hpivots => rw [hpivots]
      . rw [upTo_succ_of_ended_ne_none ⟨p, hp⟩ hended]
        exact ih

theorem openRows_add_length (hp : p ≤ n) :
    (upTo settings g h p).openRows + (upTo settings g h p).pivotColumns.length = n := by
  apply upTo_of_step (P := fun s => s.openRows + s.pivotColumns.length = n)
  case hstep =>
    intro c r hr _ hadd
    simpa using hadd
  case hstart => simp [start]
  case hpass =>
    intro c hm hadd
    exact hadd
  case hsettle =>
    intro c hadd
    cases settled_settle c (swept settings g h c) with
    | pivot hopen _ _ hopen' hpivots =>
      rw [hopen', hpivots, List.length_append, List.length_singleton]
      omega
    | free _ hopen' hpivots => rwa [hopen', hpivots]
  case hp => exact hp

/-!
### The order of the steps
-/

def track (s : Sweep m n) : List (Nat × Nat) :=
  s.trace.toList.map fun step => (step.pass, step.row)

theorem track_record_stepAt (s : Sweep m n) (c : Fin n) (hr : r + 1 < m)
    (hdivisor : (stepAt settings g h c r hr).divisor.isFinite = true) :
    (s.record (stepAt settings g h c r hr)).track = s.track ++ [(c.val, r)] := by
  have hstep := Step.effect_ofPair settings (before settings g h c r (Nat.lt_of_succ_lt hr)).grid c r
    (Nat.lt_of_succ_lt hr) hr
  unfold track
  rw [trace_record, if_pos hdivisor, Array.toList_push, List.map_append]
  unfold stepAt
  simp [hstep.pass_eq, hstep.row_eq]

theorem isFinite_of_ended_record {s : Sweep m n} {step : Step m (n + 1)} (hs : s.ended = none)
    (hended : (s.record step).ended ≠ some .divisorOverflow) : step.divisor.isFinite = true := by
  rw [ended_record hs] at hended
  cases hdivisor : step.divisor.isFinite with
  | true => rfl
  | false => simp [hdivisor] at hended

theorem track_before (c : Fin n) (hk : k < m) (hs : (before settings g h c k hk).ended = none) :
    (before settings g h c k hk).track = (upTo settings g h c).track ++ (List.range k).map (c.val, ·) := by
  induction k with
  | zero => simp [before, pairs, track]
  | succ k ih =>
    have hended : (before settings g h c k (Nat.lt_of_succ_lt hk)).ended = none := ended_of_pairs_succ hk hs
    have ih := ih (Nat.lt_of_succ_lt hk) hended
    rw [before_succ c hk hended] at hs ⊢
    rw [track_record_stepAt _ c hk (isFinite_of_ended_record hended (by simp [hs])), ih, List.append_assoc,
      List.range_succ, List.map_append]
    rfl

def passTracks (length : Nat → Nat) (p : Nat) : List (Nat × Nat) :=
  (List.range p).flatMap fun q => (List.range (length q)).map (q, ·)

theorem passTracks_succ (length : Nat → Nat) (p : Nat) :
    passTracks length (p + 1) = passTracks length p ++ (List.range (length p)).map (p, ·) := by
  simp [passTracks, List.range_succ]

theorem passTracks_congr {length length' : Nat → Nat} (h : ∀ q < p, length q = length' q) :
    passTracks length p = passTracks length' p := by
  unfold passTracks
  rw [List.flatMap_def, List.flatMap_def]
  congr 1
  apply List.map_congr_left
  intro q hq
  rw [h q (List.mem_range.mp hq)]

theorem track_upTo (hp : p ≤ n) (hs : (upTo settings g h p).ended = none) :
    (upTo settings g h p).track = passTracks (fun q => (upTo settings g h q).openRows - 1) p := by
  induction p with
  | zero => rfl
  | succ p ih =>
    have hended := ended_upTo_succ ⟨p, hp⟩ hs
    have ih := ih (by omega) hended.left
    have htrack := track_before ⟨p, hp⟩ (lowest_lt h ⟨p, hp⟩ _) hended.right
    rw [passTracks_succ, ← ih, upTo_succ_eq_settle ⟨p, hp⟩ hs, track, trace_settle]
    exact htrack

/-!
### The steps of a run
-/

theorem ended_upTo_of_le (hq : q ≤ p) (hp : p ≤ n) (hs : (upTo settings g h p).ended = none) :
    (upTo settings g h q).ended = none := by
  induction p with
  | zero =>
    have hzero : q = 0 := by omega
    rwa [hzero]
  | succ p ih =>
    cases Nat.eq_or_lt_of_le hq with
    | inl heq => rwa [heq]
    | inr hlt => exact ih (by omega) (by omega) (ended_upTo_succ ⟨p, hp⟩ hs).left

theorem openRows_sub_one (hq : q ≤ p) (hp : p ≤ n) (hs : (upTo settings g h q).ended = none) :
    (upTo settings g h q).openRows - 1 = n - 1 - (upTo settings g h p).pivotColumns.countP (· < q) := by
  have hadd : (upTo settings g h q).openRows + (upTo settings g h q).pivotColumns.length = n :=
    openRows_add_length (by omega)
  rw [countP_pivotColumns hq hp hs]
  omega

def stepsIn (s : Sweep m n) (p : Nat) : Nat :=
  s.trace.toList.countP (·.pass = p)

theorem countP_passTracks (length : Nat → Nat) (p q : Nat) :
    (passTracks length p).countP (·.1 = q) = if q < p then length q else 0 := by
  induction p with
  | zero => rfl
  | succ p ih =>
    rw [passTracks_succ, List.countP_append, ih, List.countP_map]
    by_cases heq : p = q
    . subst heq
      simp [Function.comp_def]
    . have hlt : q < p + 1 ↔ q < p := by omega
      simp [Function.comp_def, heq, hlt]

theorem stepsIn_eq {s : Sweep m n} {length : Nat → Nat} (htrack : s.track = passTracks length s.passes)
    (hp : p < s.passes) : s.stepsIn p = length p := by
  have hcount := countP_passTracks length s.passes p
  rw [← htrack, track, List.countP_map, if_pos hp] at hcount
  exact hcount

/--
Whether the steps of a sweep are those of its passes in order, each from the top down, and each pass that came to its
end took as many steps as there were pairs of open rows.
-/
structure InOrder (s : Sweep m n) : Prop where
  track_eq : s.track = passTracks s.stepsIn s.passes
  stepsIn_eq : ∀ p < s.passes, p + 1 < s.passes ∨ s.ended = none →
    s.stepsIn p = n - 1 - s.pivotColumns.countP (· < p)

theorem InOrder.of_track {s : Sweep m n} (length : Nat → Nat) (htrack : s.track = passTracks length s.passes)
    (hlength : ∀ p < s.passes, p + 1 < s.passes ∨ s.ended = none →
      length p = n - 1 - s.pivotColumns.countP (· < p)) : s.InOrder := by
  constructor
  case track_eq =>
    rw [htrack]
    apply passTracks_congr
    intro p hp
    exact (Sweep.stepsIn_eq htrack hp).symm
  case stepsIn_eq =>
    intro p hp hcomplete
    rw [Sweep.stepsIn_eq htrack hp]
    exact hlength p hp hcomplete

theorem inOrder_of_ended (hs : (run settings g h).ended = none) : (run settings g h).InOrder := by
  rw [← upTo_length] at hs ⊢
  have hpasses := passes_upTo (Nat.le_refl n) hs
  apply InOrder.of_track fun q => (upTo settings g h q).openRows - 1
  . rw [hpasses]
    exact track_upTo (Nat.le_refl n) hs
  . intro p hp _
    rw [hpasses] at hp
    exact openRows_sub_one (by omega) (Nat.le_refl n) (ended_upTo_of_le (by omega) (Nat.le_refl n) hs)

theorem sourceRow_of_mem_trace {step : Step m (n + 1)} (hmem : step ∈ (run settings g h).trace) :
    step.sourceRow = step.row + 1 ∧ step.sourceRow < m := by
  obtain ⟨c, r, hr, -, rfl⟩ := exists_of_mem_trace step hmem
  have hstep := Step.effect_ofPair settings (before settings g h c r (Nat.lt_of_succ_lt hr)).grid c r
    (Nat.lt_of_succ_lt hr) hr
  unfold stepAt
  rw [hstep.sourceRow_eq, hstep.row_eq]
  exact ⟨rfl, hr⟩

structure StoppedAt (s : Sweep m n) (settings : SweepSettings) (g : Grid m (n + 1)) (h : n ≤ m) (c : Fin n) (r : Nat)
    (hr : r + 1 < m) : Prop where
  reached : Reaches settings g h c r hr
  grid_eq : s.grid = (stepAt settings g h c r hr).grid
  trace_eq : s.trace = (before settings g h c r (Nat.lt_of_succ_lt hr)).trace.push (stepAt settings g h c r hr)
  passes_eq : s.passes = c + 1
  track_eq : s.track = passTracks (fun q => (upTo settings g h q).openRows - 1) c ++
    (List.range (r + 1)).map (c.val, ·)
  pivotColumns_eq : s.pivotColumns = (upTo settings g h c).pivotColumns
  freeColumns_eq : s.freeColumns = (upTo settings g h c).freeColumns

theorem exists_stoppedAt (hs : (run settings g h).ended ≠ none)
    (hoverflow : (run settings g h).ended ≠ some .divisorOverflow) :
    ∃ (c : Fin n) (r : Nat) (hr : r + 1 < m), StoppedAt (run settings g h) settings g h c r hr := by
  obtain ⟨c, r, hr, reached, hstop⟩ := exists_stop_run hs
  have hended := reached.ended
  have hc := ended_of_before c _ hended
  have hpasses := passes_upTo (Nat.le_of_lt c.isLt) hc
  have htrack := track_upTo (Nat.le_of_lt c.isLt) hc
  rw [hstop] at hoverflow ⊢
  have hdivisor := isFinite_of_ended_record hended hoverflow
  refine ⟨c, r, hr, ?_⟩
  constructor
  case reached => exact reached
  case grid_eq => rw [grid_record]
  case trace_eq => rw [trace_record, if_pos hdivisor]
  case passes_eq => rw [passes_record, passes_before, hpasses]
  case track_eq =>
    rw [track_record_stepAt _ c hr hdivisor, track_before c _ hended, htrack, List.range_succ, List.map_append,
      List.append_assoc]
    rfl
  case pivotColumns_eq =>
    rw [pivotColumns_record]
    exact (before_frame c _).right.left
  case freeColumns_eq =>
    rw [freeColumns_record]
    exact (before_frame c _).right.right

theorem StoppedAt.inOrder {s : Sweep m n} {hr : r + 1 < m} (hstop : StoppedAt s settings g h c r hr)
    (hs : s.ended ≠ none) : s.InOrder := by
  have hc := ended_of_before c _ hstop.reached.ended
  have hpasses := hstop.passes_eq
  apply InOrder.of_track fun q => if q < c then (upTo settings g h q).openRows - 1 else r + 1
  . rw [hpasses, passTracks_succ, hstop.track_eq, if_neg (Nat.lt_irrefl _)]
    congr 1
    apply passTracks_congr
    intro q hq
    rw [if_pos hq]
  . intro p hp hcomplete
    have hlt : p < c := by
      cases hcomplete with
      | inl hlt => omega
      | inr hnone => exact absurd hnone hs
    have hcn := c.isLt
    rw [if_pos hlt, hstop.pivotColumns_eq]
    exact openRows_sub_one (by omega) (by omega) (ended_upTo_of_le (by omega) (by omega) hc)

theorem inOrder_run (hoverflow : (run settings g h).ended ≠ some .divisorOverflow) :
    (run settings g h).InOrder := by
  by_cases hs : (run settings g h).ended = none
  . exact inOrder_of_ended hs
  . obtain ⟨c, r, hr, hstop⟩ := exists_stoppedAt hs hoverflow
    exact hstop.inOrder hs

theorem countP_pivotColumns_le (hp : p ≤ n) (hs : (run settings g h).ended = none) :
    (run settings g h).pivotColumns.countP (· < p) ≤ p := by
  rw [← upTo_length] at hs ⊢
  have hended := ended_upTo_of_le hp (Nat.le_refl n) hs
  have hlength := (settled_upTo hp hended).length_eq
  rw [List.length_append, List.length_range] at hlength
  rw [countP_pivotColumns hp (Nat.le_refl n) hended]
  omega

theorem passes_run (hs : (run settings g h).ended = none) : (run settings g h).passes = n := by
  rw [← upTo_length] at hs ⊢
  exact passes_upTo (Nat.le_refl n) hs

theorem InOrder.size_trace {s : Sweep m n} (hs : s.InOrder) :
    s.trace.size = ((List.range s.passes).map s.stepsIn).sum := by
  have hlength := congrArg List.length hs.track_eq
  simpa [track, passTracks, List.length_flatMap] using hlength

/-!
### Counters
-/

structure Counts (s : Sweep m n) : Prop where
  steps_eq : s.steps = s.trace.size
  combines_eq : s.combines =
    s.trace.toList.countP fun step => step.action = .combine ∨ step.action = .swapCombine
  swaps_eq : s.swaps = s.trace.toList.countP (·.action = .swap)
  pivotSwaps_eq : s.pivotSwaps = s.trace.toList.countP (·.action = .swapCombine)

theorem Counts.record {s : Sweep m n} (hs : s.Counts) (step : Step m (n + 1)) : (s.record step).Counts := by
  have hsteps := hs.steps_eq
  have hcombines := hs.combines_eq
  have hswaps := hs.swaps_eq
  have hpivotSwaps := hs.pivotSwaps_eq
  unfold Sweep.record
  dsimp only
  split
  next =>
    cases haction : step.action
    all_goals split <;> constructor <;> simp [*]
  next => exact ⟨hsteps, hcombines, hswaps, hpivotSwaps⟩

theorem Counts.settle {s : Sweep m n} (hs : s.Counts) (c : Fin n) : (s.settle c).Counts := by
  have hcounts := And.intro hs.steps_eq (And.intro hs.combines_eq (And.intro hs.swaps_eq hs.pivotSwaps_eq))
  unfold Sweep.settle
  split
  next => constructor <;> simp [hcounts]
  next =>
    dsimp only
    split
    next => constructor <;> simp [hcounts]
    next => constructor <;> simp [hcounts]

theorem counts_run : (run settings g h).Counts := by
  apply run_of_step (P := Counts)
  case hstep =>
    intro c r hr _ hcounts
    apply hcounts.record
  case hstart => constructor <;> rfl
  case hpass =>
    intro c hm hcounts
    exact ⟨hcounts.steps_eq, hcounts.combines_eq, hcounts.swaps_eq, hcounts.pivotSwaps_eq⟩
  case hsettle =>
    intro c hcounts
    apply hcounts.settle

end Sweep

end RowSweep
