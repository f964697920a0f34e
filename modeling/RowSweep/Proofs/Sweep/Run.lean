import RowSweep.Proofs.Sweep.Step

/-!
This module contains the states that a sweep passes through: the one before each pass and the one before each
pair of rows. What every step keeps holds in all of them.
-/

namespace RowSweep.Sweep

variable {settings : SweepSettings} {c : Fin n} {s : Sweep m n}

/-!
### The steps of a pass
-/

@[simp]
theorem openRows_record (step : Step m (n + 1)) : (s.record step).openRows = s.openRows := by
  unfold record
  dsimp only
  split
  next => split <;> rfl
  next => rfl

@[simp]
theorem pivotColumns_record (step : Step m (n + 1)) :
    (s.record step).pivotColumns = s.pivotColumns := by
  unfold record
  dsimp only
  split
  next => split <;> rfl
  next => rfl

@[simp]
theorem freeColumns_record (step : Step m (n + 1)) :
    (s.record step).freeColumns = s.freeColumns := by
  unfold record
  dsimp only
  split
  next => split <;> rfl
  next => rfl

@[simp]
theorem grid_record (step : Step m (n + 1)) : (s.record step).grid = step.grid := by
  unfold record
  dsimp only
  split
  next => split <;> rfl
  next => rfl

theorem ended_record (hs : s.ended = none) (step : Step m (n + 1)) :
    (s.record step).ended =
      if step.divisor.isFinite then
        if step.grid.isConsistent then none else some .contradiction
      else some .divisorOverflow := by
  unfold record
  dsimp only
  split
  next => split <;> simp_all
  next => rfl

theorem trace_record (step : Step m (n + 1)) :
    (s.record step).trace = if step.divisor.isFinite then s.trace.push step else s.trace := by
  unfold record
  dsimp only
  split
  next => split <;> rfl
  next => rfl

theorem pairs_succ (hk : k + 1 < m) (hs : (s.pairs settings c k (Nat.lt_of_succ_lt hk)).ended = none) :
    s.pairs settings c (k + 1) hk =
      (s.pairs settings c k (Nat.lt_of_succ_lt hk)).record
        (.ofPair settings (s.pairs settings c k (Nat.lt_of_succ_lt hk)).grid c k hk) := by
  rw [pairs]
  simp [hs]

theorem pairs_succ_of_ended (hk : k + 1 < m)
    (hs : (s.pairs settings c k (Nat.lt_of_succ_lt hk)).ended ≠ none) :
    s.pairs settings c (k + 1) hk = s.pairs settings c k (Nat.lt_of_succ_lt hk) := by
  rw [pairs]
  simp [hs]

theorem pairs_frame (hk : k < m) :
    (s.pairs settings c k hk).openRows = s.openRows ∧
      (s.pairs settings c k hk).pivotColumns = s.pivotColumns ∧
        (s.pairs settings c k hk).freeColumns = s.freeColumns := by
  induction k with
  | zero => exact ⟨rfl, rfl, rfl⟩
  | succ k ih =>
    have ih := ih (by omega)
    by_cases hs : (s.pairs settings c k (Nat.lt_of_succ_lt hk)).ended = none
    . rw [pairs_succ hk hs]
      simpa using ih
    . rwa [pairs_succ_of_ended hk hs]

theorem ended_of_pairs_succ (hk : k + 1 < m)
    (hs : (s.pairs settings c (k + 1) hk).ended = none) :
    (s.pairs settings c k (Nat.lt_of_succ_lt hk)).ended = none := by
  apply Classical.byContradiction
  intro hended
  rw [pairs_succ_of_ended hk hended] at hs
  exact hended hs

theorem ended_of_pairs_le (hk : k < m) (hs : (s.pairs settings c k hk).ended = none) (hj : j ≤ k) :
    (s.pairs settings c j (Nat.lt_of_le_of_lt hj hk)).ended = none := by
  induction k with
  | zero =>
    obtain rfl : j = 0 := by omega
    exact hs
  | succ k ih =>
    cases Nat.eq_or_lt_of_le hj with
    | inl heq =>
      subst heq
      exact hs
    | inr hlt => exact ih (by omega) (ended_of_pairs_succ hk hs) (by omega)

theorem pairs_getElem_of_lt (hk : k < m) (hi : i < m) (hki : k < i) :
    (s.pairs settings c k hk).grid[i] = s.grid[i] := by
  induction k with
  | zero => rfl
  | succ k ih =>
    by_cases hs : (s.pairs settings c k (Nat.lt_of_succ_lt hk)).ended = none
    . rw [pairs_succ hk hs, grid_record,
        (Step.effect_ofPair settings _ c k (Nat.lt_of_succ_lt hk) hk).getElem_of_ne hi (by omega) (by omega)]
      exact ih (by omega) (by omega)
    . rw [pairs_succ_of_ended hk hs]
      exact ih (by omega) (by omega)

/-!
### The end of a pass
-/

@[simp]
theorem grid_settle (c : Fin n) : (s.settle c).grid = s.grid := by
  unfold settle
  split
  next => rfl
  next =>
    dsimp only
    split <;> rfl

@[simp]
theorem ended_settle (c : Fin n) : (s.settle c).ended = s.ended := by
  unfold settle
  split
  next => rfl
  next =>
    dsimp only
    split <;> rfl

@[simp]
theorem trace_settle (c : Fin n) : (s.settle c).trace = s.trace := by
  unfold settle
  split
  next => rfl
  next =>
    dsimp only
    split <;> rfl

inductive Settled (c : Fin n) (s t : Sweep m n) : Prop where
  | pivot (openRows : s.openRows = k + 1) (lt : k < m) (entry : s.grid[k][c.castSucc].isZero = false)
      (openRows_eq : t.openRows = k) (pivotColumns_eq : t.pivotColumns = s.pivotColumns ++ [c.val])
      (freeColumns_eq : t.freeColumns = s.freeColumns)
  | free (entry : ∀ k (lt : k < m), s.openRows = k + 1 → s.grid[k][c.castSucc].isZero = true)
      (openRows_eq : t.openRows = s.openRows) (pivotColumns_eq : t.pivotColumns = s.pivotColumns)
      (freeColumns_eq : t.freeColumns = s.freeColumns ++ [c.val])

theorem settled_settle (c : Fin n) (s : Sweep m n) : Settled c s (s.settle c) := by
  unfold settle
  split
  next hzero =>
    refine Settled.free ?_ rfl rfl rfl
    intro k _ hk
    omega
  next k hk =>
    have hle := s.openRows_le
    dsimp only
    split
    next hentry =>
      refine Settled.free ?_ rfl rfl rfl
      intro l hl hkl
      obtain rfl : k = l := by omega
      exact hentry
    next hentry =>
      rw [Bool.not_eq_true] at hentry
      exact Settled.pivot hk (by omega) hentry rfl rfl rfl

/-!
### The states of a sweep
-/

def upTo (settings : SweepSettings) (g : Grid m (n + 1)) (h : n ≤ m) (p : Nat) : Sweep m n :=
  ((List.finRange n).take p).foldl (pass settings) (start g h)

def before (settings : SweepSettings) (g : Grid m (n + 1)) (h : n ≤ m) (c : Fin n) (r : Nat)
    (hr : r < m) : Sweep m n :=
  let s := upTo settings g h c
  { s with passes := s.passes + 1 }.pairs settings c r hr

theorem lowest_lt (h : n ≤ m) (c : Fin n) (s : Sweep m n) : s.openRows - 1 < m := by
  have := s.openRows_le
  have := c.isLt
  omega

def swept (settings : SweepSettings) (g : Grid m (n + 1)) (h : n ≤ m) (c : Fin n) : Sweep m n :=
  before settings g h c ((upTo settings g h c).openRows - 1) (lowest_lt h c _)

structure Reaches (settings : SweepSettings) (g : Grid m (n + 1)) (h : n ≤ m) (c : Fin n) (r : Nat)
    (hr : r + 1 < m) : Prop where
  lt : r + 1 < (upTo settings g h c).openRows
  ended : (before settings g h c r (Nat.lt_of_succ_lt hr)).ended = none

instance (settings : SweepSettings) (g : Grid m (n + 1)) (h : n ≤ m) (c : Fin n) (r : Nat) (hr : r + 1 < m) :
    Decidable (Reaches settings g h c r hr) :=
  decidable_of_iff
    (r + 1 < (upTo settings g h c).openRows ∧ (before settings g h c r (Nat.lt_of_succ_lt hr)).ended = none)
    ⟨fun hreach => ⟨hreach.left, hreach.right⟩, fun hreach => ⟨hreach.lt, hreach.ended⟩⟩

def stepAt (settings : SweepSettings) (g : Grid m (n + 1)) (h : n ≤ m) (c : Fin n) (r : Nat)
    (hr : r + 1 < m) : Step m (n + 1) :=
  .ofPair settings (before settings g h c r (Nat.lt_of_succ_lt hr)).grid c r hr

variable {g : Grid m (n + 1)} {h : n ≤ m}

theorem upTo_zero : upTo settings g h 0 = start g h := rfl

theorem upTo_succ (c : Fin n) :
    upTo settings g h (c + 1) = (upTo settings g h c).pass settings c := by
  unfold upTo
  rw [List.take_succ_eq_append_getElem (by simp), List.foldl_append]
  simp

theorem upTo_length : upTo settings g h n = run settings g h := by
  unfold upTo run
  rw [List.take_of_length_le (by simp)]

theorem before_frame (c : Fin n) (hr : r < m) :
    (before settings g h c r hr).openRows = (upTo settings g h c).openRows ∧
      (before settings g h c r hr).pivotColumns = (upTo settings g h c).pivotColumns ∧
        (before settings g h c r hr).freeColumns = (upTo settings g h c).freeColumns := by
  unfold before
  exact pairs_frame hr

variable (settings g h) in
theorem swept_frame (c : Fin n) :
    (swept settings g h c).openRows = (upTo settings g h c).openRows ∧
      (swept settings g h c).pivotColumns = (upTo settings g h c).pivotColumns ∧
        (swept settings g h c).freeColumns = (upTo settings g h c).freeColumns :=
  before_frame c _

theorem ended_of_before (c : Fin n) (hr : r < m)
    (hs : (before settings g h c r hr).ended = none) : (upTo settings g h c).ended = none :=
  ended_of_pairs_le hr hs (Nat.zero_le r)

theorem before_succ (c : Fin n) (hr : r + 1 < m)
    (hs : (before settings g h c r (Nat.lt_of_succ_lt hr)).ended = none) :
    before settings g h c (r + 1) hr =
      (before settings g h c r (Nat.lt_of_succ_lt hr)).record (stepAt settings g h c r hr) :=
  pairs_succ hr hs

theorem before_succ_of_ended_ne_none (c : Fin n) (hr : r + 1 < m)
    (hs : (before settings g h c r (Nat.lt_of_succ_lt hr)).ended ≠ none) :
    before settings g h c (r + 1) hr = before settings g h c r (Nat.lt_of_succ_lt hr) :=
  pairs_succ_of_ended hr hs

theorem upTo_succ_of_ended (c : Fin n) (hs : (upTo settings g h c).ended = none) :
    upTo settings g h (c + 1) =
      if (swept settings g h c).ended.isSome then swept settings g h c
      else (swept settings g h c).settle c := by
  rw [upTo_succ, pass]
  simp [hs, lowest_lt h c, swept, before]

theorem upTo_succ_of_ended_ne_none (c : Fin n) (hs : (upTo settings g h c).ended ≠ none) :
    upTo settings g h (c + 1) = upTo settings g h c := by
  rw [upTo_succ, pass]
  simp [hs]

theorem ended_upTo_succ (c : Fin n) (hs : (upTo settings g h (c + 1)).ended = none) :
    (upTo settings g h c).ended = none ∧ (swept settings g h c).ended = none := by
  by_cases hc : (upTo settings g h c).ended = none
  . refine ⟨hc, ?_⟩
    rw [upTo_succ_of_ended c hc] at hs
    cases hswept : (swept settings g h c).ended with
    | none => rfl
    | some e => simp [hswept] at hs
  . rw [upTo_succ_of_ended_ne_none c hc] at hs
    exact absurd hs hc

theorem upTo_succ_eq_settle (c : Fin n) (hs : (upTo settings g h (c + 1)).ended = none) :
    upTo settings g h (c + 1) = (swept settings g h c).settle c := by
  have hended := ended_upTo_succ c hs
  rw [upTo_succ_of_ended c hended.left]
  simp [hended.right]

/-!
### Invariants
-/

section invariant

variable {P : Sweep m n → Prop}

theorem before_of_step (c : Fin n)
    (hstep : ∀ (r : Nat) (hr : r + 1 < m), Reaches settings g h c r hr →
      P (before settings g h c r (Nat.lt_of_succ_lt hr)) →
        P ((before settings g h c r (Nat.lt_of_succ_lt hr)).record (stepAt settings g h c r hr)))
    (hpass : ∀ hm : 0 < m, P (before settings g h c 0 hm)) (hr : r < m)
    (hopen : r ≤ (upTo settings g h c).openRows - 1) : P (before settings g h c r hr) := by
  induction r with
  | zero => exact hpass hr
  | succ r ih =>
    have ih := ih (by omega) (by omega)
    by_cases hs : (before settings g h c r (Nat.lt_of_succ_lt hr)).ended = none
    . rw [before_succ c hr hs]
      exact hstep r hr ⟨by omega, hs⟩ ih
    . rwa [before_succ_of_ended_ne_none c hr hs]

variable (hstep : ∀ (c : Fin n) (r : Nat) (hr : r + 1 < m), Reaches settings g h c r hr →
  P (before settings g h c r (Nat.lt_of_succ_lt hr)) →
    P ((before settings g h c r (Nat.lt_of_succ_lt hr)).record (stepAt settings g h c r hr)))
variable (hstart : P (start g h))
variable (hpass : ∀ (c : Fin n) (hm : 0 < m), P (upTo settings g h c) → P (before settings g h c 0 hm))
variable (hsettle : ∀ c : Fin n, P (swept settings g h c) → P ((swept settings g h c).settle c))

include hstep hstart hpass hsettle

theorem upTo_of_step (hp : p ≤ n) : P (upTo settings g h p) := by
  induction p with
  | zero => exact hstart
  | succ p ih =>
    have ih := ih (by omega)
    by_cases hs : (upTo settings g h p).ended = none
    . have hswept : P (swept settings g h ⟨p, hp⟩) :=
        before_of_step ⟨p, hp⟩ (hstep ⟨p, hp⟩) (fun hm => hpass ⟨p, hp⟩ hm ih) _ (Nat.le_refl _)
      rw [upTo_succ_of_ended ⟨p, hp⟩ hs]
      split
      . exact hswept
      . exact hsettle ⟨p, hp⟩ hswept
    . rwa [upTo_succ_of_ended_ne_none ⟨p, hp⟩ hs]

theorem run_of_step : P (run settings g h) := by
  rw [← upTo_length]
  exact upTo_of_step hstep hstart hpass hsettle (Nat.le_refl n)

end invariant

section grid

variable {P : Grid m (n + 1) → Prop}

theorem grid_before_of_step (c : Fin n)
    (hstep : ∀ (r : Nat) (hr : r + 1 < m), Reaches settings g h c r hr →
      P (before settings g h c r (Nat.lt_of_succ_lt hr)).grid → P (stepAt settings g h c r hr).grid)
    (hpass : P (upTo settings g h c).grid) (hr : r < m)
    (hopen : r ≤ (upTo settings g h c).openRows - 1) : P (before settings g h c r hr).grid := by
  apply before_of_step (P := fun s => P s.grid)
  case hstep =>
    intro r hr reached hgrid
    rw [grid_record]
    exact hstep r hr reached hgrid
  case hpass => exact fun hm => hpass
  case hopen => exact hopen

variable (hstart : P g)
variable (hstep : ∀ (c : Fin n) (r : Nat) (hr : r + 1 < m), Reaches settings g h c r hr →
  P (before settings g h c r (Nat.lt_of_succ_lt hr)).grid → P (stepAt settings g h c r hr).grid)

include hstart hstep

theorem grid_upTo_of_step (hp : p ≤ n) : P (upTo settings g h p).grid := by
  apply upTo_of_step (P := fun s => P s.grid)
  case hstep =>
    intro c r hr reached hgrid
    rw [grid_record]
    exact hstep c r hr reached hgrid
  case hstart => exact hstart
  case hpass =>
    intro c hm hgrid
    exact hgrid
  case hsettle =>
    intro c hgrid
    rwa [grid_settle]
  case hp => exact hp

theorem grid_run_of_step : P (run settings g h).grid := by
  rw [← upTo_length]
  exact grid_upTo_of_step hstart hstep (Nat.le_refl n)

end grid

theorem ended_run
    (hstep : ∀ (c : Fin n) (r : Nat) (hr : r + 1 < m), Reaches settings g h c r hr →
      (stepAt settings g h c r hr).divisor.isFinite = true) :
    (run settings g h).ended = none ∨ (run settings g h).ended = some .contradiction := by
  apply run_of_step (P := fun s => s.ended = none ∨ s.ended = some .contradiction)
  case hstep =>
    intro c r hr reached _
    rw [ended_record reached.ended, if_pos (hstep c r hr reached)]
    split
    . exact Or.inl rfl
    . exact Or.inr rfl
  case hstart => exact Or.inl rfl
  case hpass =>
    intro c hm hs
    exact hs
  case hsettle =>
    intro c hs
    rwa [ended_settle]

theorem isConsistent_of_contradiction (hended : (run settings g h).ended = some .contradiction) :
    (run settings g h).grid.isConsistent = false := by
  -- A sweep that ends for a contradiction leaves the contradictory row in its grid.
  revert hended
  apply run_of_step (P := fun s => s.ended = some .contradiction → s.grid.isConsistent = false)
  case hstep =>
    intro c r hr reached _
    rw [ended_record reached.ended, grid_record]
    split
    next =>
      split
      next =>
        intro heq
        cases heq
      next hconsistent =>
        intro _
        rwa [Bool.not_eq_true] at hconsistent
    next =>
      intro heq
      cases heq
  case hstart =>
    intro heq
    cases heq
  case hpass =>
    intro c hm hs
    exact hs
  case hsettle =>
    intro c hs
    rwa [ended_settle, grid_settle]

theorem ended_of_isConsistent
    (hended : (run settings g h).ended = none ∨ (run settings g h).ended = some .contradiction)
    (hconsistent : (run settings g h).grid.isConsistent = true) : (run settings g h).ended = none := by
  cases hended with
  | inl hnone => exact hnone
  | inr hcontradiction =>
    rw [isConsistent_of_contradiction hcontradiction] at hconsistent
    cases hconsistent

/-!
### What stays

What recording a step and closing a pass keep is kept from one state of a sweep to all later ones.
-/

section persistence

variable {P : Sweep m n → Prop}
variable (hrecord : ∀ (s : Sweep m n) (step : Step m (n + 1)), s.ended = none → P s → P (s.record step))

include hrecord

theorem before_of_before (c : Fin n) (hq : q ≤ r) (hr : r < m)
    (hbefore : P (before settings g h c q (Nat.lt_of_le_of_lt hq hr))) : P (before settings g h c r hr) := by
  induction r with
  | zero =>
    obtain rfl : q = 0 := by omega
    exact hbefore
  | succ r ih =>
    cases Nat.eq_or_lt_of_le hq with
    | inl heq =>
      subst heq
      exact hbefore
    | inr hlt =>
      have ih := ih (by omega) (by omega) hbefore
      by_cases hs : (before settings g h c r (Nat.lt_of_succ_lt hr)).ended = none
      . rw [before_succ c hr hs]
        exact hrecord _ _ hs ih
      . rwa [before_succ_of_ended_ne_none c hr hs]

variable (hpass : ∀ (c : Fin n) (hm : 0 < m), P (upTo settings g h c) → P (before settings g h c 0 hm))
variable (hsettle : ∀ (c : Fin n) (s : Sweep m n), P s → P (s.settle c))

include hpass hsettle

omit hpass in
theorem upTo_succ_of_before (c : Fin n) (hr : r < m) (hopen : r ≤ (upTo settings g h c).openRows - 1)
    (hended : (upTo settings g h c).ended = none) (hbefore : P (before settings g h c r hr)) :
    P (upTo settings g h (c + 1)) := by
  have hswept : P (swept settings g h c) := before_of_before hrecord c hopen _ hbefore
  rw [upTo_succ_of_ended c hended]
  split
  . exact hswept
  . exact hsettle c _ hswept

theorem upTo_of_upTo (hp : p ≤ q) (hq : q ≤ n) (hupTo : P (upTo settings g h p)) : P (upTo settings g h q) := by
  induction q with
  | zero =>
    obtain rfl : p = 0 := by omega
    exact hupTo
  | succ q ih =>
    cases Nat.eq_or_lt_of_le hp with
    | inl heq =>
      subst heq
      exact hupTo
    | inr hlt =>
      have ih := ih (by omega) (by omega)
      by_cases hs : (upTo settings g h q).ended = none
      . have hlowest := lowest_lt h ⟨q, hq⟩ (upTo settings g h q)
        exact upTo_succ_of_before hrecord hsettle ⟨q, hq⟩ (by omega) (Nat.zero_le _) hs (hpass ⟨q, hq⟩ (by omega) ih)
      . rwa [upTo_succ_of_ended_ne_none ⟨q, hq⟩ hs]

theorem run_of_before (c : Fin n) (hr : r + 1 < m) (reached : Reaches settings g h c r hr)
    (hbefore : P (before settings g h c (r + 1) hr)) : P (run settings g h) := by
  have hlt := reached.lt
  rw [← upTo_length]
  apply upTo_of_upTo hrecord hpass hsettle (p := c + 1) (by omega) (Nat.le_refl n)
  exact upTo_succ_of_before hrecord hsettle c hr (by omega) (ended_of_before c _ reached.ended) hbefore

end persistence

theorem ended_eq_divisorOverflow_iff :
    (run settings g h).ended = some .divisorOverflow ↔ ∃ (c : Fin n) (r : Nat) (hr : r + 1 < m),
      Reaches settings g h c r hr ∧ (stepAt settings g h c r hr).divisor.isFinite = false := by
  constructor
  . apply run_of_step (P := fun s => s.ended = some .divisorOverflow → ∃ (c : Fin n) (r : Nat) (hr : r + 1 < m),
      Reaches settings g h c r hr ∧ (stepAt settings g h c r hr).divisor.isFinite = false)
    case hstep =>
      intro c r hr reached _ hended
      cases hdivisor : (stepAt settings g h c r hr).divisor.isFinite with
      | true =>
        rw [ended_record reached.ended, if_pos hdivisor] at hended
        split at hended <;> cases hended
      | false => exact ⟨c, r, hr, reached, hdivisor⟩
    case hstart =>
      intro hended
      cases hended
    case hpass =>
      intro c hm hs
      exact hs
    case hsettle =>
      intro c hs
      rwa [ended_settle]
  . intro hex
    obtain ⟨c, r, hr, reached, hdivisor⟩ := hex
    apply run_of_before (P := fun s => s.ended = some .divisorOverflow) _ _ _ c hr reached
    . rw [before_succ c hr reached.ended, ended_record reached.ended, hdivisor, if_neg Bool.false_ne_true]
    . intro s step hs hended
      rw [hs] at hended
      cases hended
    . intro c hm hs
      exact hs
    . intro c s hs
      rwa [ended_settle]

/-!
### The trace

Apart from one whose divisor overflowed, the steps of a sweep are in its trace, and nothing else is.
-/

section trace

variable {step : Step m (n + 1)}

theorem mem_trace_record (hmem : step ∈ s.trace) (taken : Step m (n + 1)) :
    step ∈ (s.record taken).trace := by
  rw [trace_record]
  split
  . exact Array.mem_push_of_mem _ hmem
  . exact hmem

theorem stepAt_mem_trace (hr : r + 1 < m) (reached : Reaches settings g h c r hr)
    (hdivisor : (stepAt settings g h c r hr).divisor.isFinite = true) :
    stepAt settings g h c r hr ∈ (run settings g h).trace := by
  apply run_of_before (P := fun s => stepAt settings g h c r hr ∈ s.trace) _ _ _ c hr reached
  . rw [before_succ c hr reached.ended, trace_record, if_pos hdivisor]
    exact Array.mem_push_self
  . exact fun s taken _ hmem => mem_trace_record hmem taken
  . intro c hm hmem
    exact hmem
  . intro c s hmem
    rwa [trace_settle]

theorem exists_of_mem_trace :
    ∀ step ∈ (run settings g h).trace, ∃ (c : Fin n) (r : Nat) (hr : r + 1 < m),
      Reaches settings g h c r hr ∧ step = stepAt settings g h c r hr := by
  apply run_of_step (P := fun s => ∀ step ∈ s.trace, ∃ (c : Fin n) (r : Nat) (hr : r + 1 < m),
    Reaches settings g h c r hr ∧ step = stepAt settings g h c r hr)
  case hstep =>
    intro c r hr reached htrace step hmem
    rw [trace_record] at hmem
    split at hmem
    next =>
      cases Array.mem_push.mp hmem with
      | inl hmem => exact htrace step hmem
      | inr heq => exact ⟨c, r, hr, reached, heq⟩
    next => exact htrace step hmem
  case hstart =>
    intro step hmem
    simp [start] at hmem
  case hpass =>
    intro c hm htrace
    exact htrace
  case hsettle =>
    intro c htrace
    rwa [trace_settle]

end trace

end RowSweep.Sweep
