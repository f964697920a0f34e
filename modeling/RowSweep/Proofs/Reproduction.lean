import RowSweep.Proofs.Document
import RowSweep.Proofs.Solver.FailFast
import RowSweep.Proofs.Thresholds.Checks
import RowSweep.Reproduction

/-!
This module contains what the counts over solves say: each of them counts its kind of solve, so it does not matter in
which order the solves come and the counts over two batches add up. The counts fit together as the facts of each
solve do.
-/

namespace RowSweep

/-!
### The facts of one solve
-/

theorem Sweep.Counts.pivotSwaps_le {s : Sweep m n} (hs : s.Counts) : s.pivotSwaps ≤ s.combines := by
  rw [hs.pivotSwaps_eq, hs.combines_eq]
  apply List.countP_mono_left
  intro step _ hstep
  exact decide_eq_true (Or.inr (of_decide_eq_true hstep))

theorem Sweep.Counts.le_steps {s : Sweep m n} (hs : s.Counts) : s.combines + s.swaps ≤ s.steps := by
  rw [hs.combines_eq, hs.swaps_eq, hs.steps_eq, ← Array.length_toList, List.length_eq_countP_add_countP]
  apply Nat.add_le_add_left
  apply List.countP_mono_left
  intro step _ hstep
  simp [of_decide_eq_true hstep]

namespace Solver

variable {s : Solver n}

theorem kind_of_aborted (h : s.solve.outcome = .ok sol) (haborted : sol.sweep.aborted = true) :
    sol.kind = .inconsistent := by
  have hgrid := grid_of_solve h
  have hended := (logs_solve h).ended
  rw [hgrid.right] at haborted
  change (reduce s.thresholds.sweep s.grid).sweep.ended.isSome = true at haborted
  obtain ⟨cause, hcause⟩ := Option.isSome_iff_exists.mp haborted
  cases cause with
  | divisorOverflow => exact absurd hcause hended
  | contradiction =>
    have hconsistent : sol.grid.isConsistent = false := by
      rw [hgrid.left]
      exact Sweep.isConsistent_of_contradiction hcause
    rw [kind_eq_of_solve h, hconsistent]
    rfl

theorem status_eq_none_iff (h : s.solve.outcome = .ok sol) :
    sol.status = none ↔ sol.kind = .inconsistent := by
  have hrates := rates_of_solve h
  have hstatus := hrates.isSome_status
  rw [hrates.consistent_eq] at hstatus
  rw [← Option.not_isSome_iff_eq_none, hstatus, kind_eq_of_solve h]
  cases sol.grid.isConsistent with
  | false => simp
  | true =>
    cases sol.grid.hasFullPivots (Nat.le_refl n) with
    | false => simp
    | true => simp

end Solver

namespace SolveFacts

def IsReturned (f : SolveFacts) : Prop :=
  ∃ (n : Nat) (s : Solver n) (sol : Solution n), s.solve.outcome = .ok sol ∧ sol.facts = f

structure IsSound (f : SolveFacts) : Prop where
  status_iff : f.status = none ↔ f.kind = .inconsistent
  aborted : f.sweep.aborted = true → f.kind = .inconsistent
  pivotSwaps_le : f.sweep.pivotSwaps ≤ f.sweep.combines
  le_steps : f.sweep.combines + f.sweep.swaps ≤ f.sweep.steps

theorem IsReturned.isSound {f : SolveFacts} (hf : f.IsReturned) : f.IsSound := by
  obtain ⟨n, s, sol, h, rfl⟩ := hf
  have hcounts : (Solver.reduce s.thresholds.sweep s.grid).sweep.Counts := Sweep.counts_run
  have hsweep := (Solver.grid_of_solve h).right
  refine ⟨Solver.status_eq_none_iff h, Solver.kind_of_aborted h, ?_, ?_⟩
  . change sol.sweep.pivotSwaps ≤ sol.sweep.combines
    rw [hsweep]
    exact hcounts.pivotSwaps_le
  . change sol.sweep.combines + sol.sweep.swaps ≤ sol.sweep.steps
    rw [hsweep]
    exact hcounts.le_steps

end SolveFacts

theorem Solver.isReturned (s : Solver n) {f : SolveFacts} (h : s.solve.outcome.map (·.facts) = .ok f) :
    f.IsReturned := by
  obtain ⟨sol, hsol, hfacts⟩ := map_eq_ok_iff.mp h
  exact ⟨n, s, sol, hsol, hfacts⟩

namespace SolveTotals

/-!
### Counts of codes
-/

variable {counts : List (String × Nat)} {code : String} {codes : List String}

theorem countCode_eq (h : Document.KeysAscend counts) :
    countCode code counts = Document.insertSorted code ((counts.lookup code).getD 0 + 1) counts := by
  induction counts with
  | nil => rfl
  | cons first rest ih =>
    have hrest := List.pairwise_cons.mp h
    unfold countCode Document.insertSorted
    rw [Document.lookup_cons_eq_ite]
    split
    next hlt => rw [ih hrest.right, if_neg (String.ne_of_lt hlt).symm]
    next hge =>
      split
      next heq =>
        subst heq
        simp
      next hne =>
        have hlt : code < first.1 := String.not_le.mp fun hle => hne (String.le_antisymm hle (String.not_lt.mp hge))
        have habsent : rest.lookup code = none :=
          Document.lookup_eq_none_of_forall_lt fun entry hmem => String.lt_trans hlt (hrest.left entry hmem)
        rw [if_neg (Ne.symm hne), habsent]
        rfl

structure CountsOf (counts : List (String × Nat)) (codes : List String) : Prop where
  ascend : Document.KeysAscend counts
  lookup_eq : ∀ code, counts.lookup code = if code ∈ codes then some (codes.count code) else none

theorem CountsOf.getD_lookup (h : CountsOf counts codes) (code : String) :
    (counts.lookup code).getD 0 = codes.count code := by
  rw [h.lookup_eq]
  split
  next => rfl
  next habsent => exact (List.count_eq_zero_of_not_mem habsent).symm

theorem CountsOf.countCode (h : CountsOf counts codes) (code : String) :
    CountsOf (countCode code counts) (codes ++ [code]) := by
  rw [countCode_eq h.ascend, h.getD_lookup]
  refine ⟨Document.keysAscend_insertSorted h.ascend, ?_⟩
  intro c
  rw [Document.lookup_insertSorted, List.count_append]
  split
  next heq => simp [heq]
  next hne => simp [h.lookup_eq, hne, Ne.symm hne]

theorem CountsOf.foldl (h : CountsOf counts codes) (more : List String) :
    CountsOf (more.foldl (fun counts code => SolveTotals.countCode code counts) counts) (codes ++ more) := by
  induction more generalizing counts codes with
  | nil => rwa [List.append_nil]
  | cons code rest ih =>
    have hrest := ih (h.countCode code)
    rwa [List.append_assoc] at hrest

theorem CountsOf.pos (h : CountsOf counts codes) : ∀ entry ∈ counts, 0 < entry.2 := by
  intro entry hmem
  have hlookup := (Document.lookup_eq_some_iff h.ascend.nodup_keys).mpr hmem
  rw [h.lookup_eq] at hlookup
  split at hlookup
  next hcode =>
    rw [← Option.some.inj hlookup]
    exact List.count_pos_iff.mpr hcode
  next => cases hlookup

theorem CountsOf.eq_of_perm {counts' : List (String × Nat)} {codes' : List String} (h : CountsOf counts codes)
    (h' : CountsOf counts' codes') (hperm : codes.Perm codes') : counts = counts' := by
  apply h.ascend.ext h'.ascend
  intro code
  rw [h.lookup_eq, h'.lookup_eq, hperm.count_eq]
  simp only [hperm.mem_iff]

/-!
### Counts of solves
-/

variable {t : SolveTotals} {facts : List SolveFacts}

structure Tallies (t : SolveTotals) (facts : List SolveFacts) : Prop where
  calls : t.calls = facts.length
  unique : t.unique = facts.countP (·.kind = .unique)
  singular : t.singular = facts.countP (·.kind = .singular)
  inconsistent : t.inconsistent = facts.countP (·.kind = .inconsistent)
  pass : t.pass = facts.countP (·.status = some .pass)
  degraded : t.degraded = facts.countP (·.status = some .degraded)
  fail : t.fail = facts.countP (·.status = some .fail)
  rowSwaps : t.rowSwaps = (facts.map (·.swapCount)).sum
  steps : t.steps = (facts.map (·.sweep.steps)).sum
  combines : t.combines = (facts.map (·.sweep.combines)).sum
  swaps : t.swaps = (facts.map (·.sweep.swaps)).sum
  pivotSwaps : t.pivotSwaps = (facts.map (·.sweep.pivotSwaps)).sum
  aborted : t.aborted = facts.countP (·.sweep.aborted)
  warnings : CountsOf t.warnings (facts.flatMap (·.warningCodes))

theorem countKind_eq (t : SolveTotals) (kind : SolutionKind) : t.countKind kind = { t with
    unique := t.unique + if kind = .unique then 1 else 0
    singular := t.singular + if kind = .singular then 1 else 0
    inconsistent := t.inconsistent + if kind = .inconsistent then 1 else 0 } := by
  cases kind with
  | unique => rfl
  | singular => rfl
  | inconsistent => rfl

theorem countStatus_eq (t : SolveTotals) (status : Option Status) : t.countStatus status = { t with
    pass := t.pass + if status = some .pass then 1 else 0
    degraded := t.degraded + if status = some .degraded then 1 else 0
    fail := t.fail + if status = some .fail then 1 else 0 } := by
  cases status with
  | none => rfl
  | some status =>
    cases status with
    | pass => rfl
    | degraded => rfl
    | fail => rfl

theorem record_eq (t : SolveTotals) (f : SolveFacts) : t.record f = {
    calls := t.calls + 1
    unique := t.unique + if f.kind = .unique then 1 else 0
    singular := t.singular + if f.kind = .singular then 1 else 0
    inconsistent := t.inconsistent + if f.kind = .inconsistent then 1 else 0
    pass := t.pass + if f.status = some .pass then 1 else 0
    degraded := t.degraded + if f.status = some .degraded then 1 else 0
    fail := t.fail + if f.status = some .fail then 1 else 0
    rowSwaps := t.rowSwaps + f.swapCount
    steps := t.steps + f.sweep.steps
    combines := t.combines + f.sweep.combines
    swaps := t.swaps + f.sweep.swaps
    pivotSwaps := t.pivotSwaps + f.sweep.pivotSwaps
    aborted := t.aborted + if f.sweep.aborted then 1 else 0
    warnings := f.warningCodes.foldl (fun counts code => countCode code counts) t.warnings } := by
  unfold record
  rw [countKind_eq, countStatus_eq]

theorem Tallies.record (h : t.Tallies facts) (f : SolveFacts) : (t.record f).Tallies (facts ++ [f]) := by
  rw [record_eq]
  have hwarnings := h.warnings.foldl f.warningCodes
  constructor
  case warnings => simpa using hwarnings
  all_goals simp [h.calls, h.unique, h.singular, h.inconsistent, h.pass, h.degraded, h.fail, h.rowSwaps, h.steps,
    h.combines, h.swaps, h.pivotSwaps, h.aborted, List.countP_singleton]

theorem tallies_ofSolves (facts : List SolveFacts) : (ofSolves facts).Tallies facts := by
  -- Totals are taken from the left, so the solves counted so far come before the others.
  have hfold : ∀ (t : SolveTotals) (before : List SolveFacts), t.Tallies before →
      (facts.foldl SolveTotals.record t).Tallies (before ++ facts) := by
    induction facts with
    | nil =>
      intro t before h
      rwa [List.append_nil]
    | cons f rest ih =>
      intro t before h
      have hrest := ih _ _ (h.record f)
      rwa [List.append_assoc] at hrest
  exact hfold {} [] ⟨rfl, rfl, rfl, rfl, rfl, rfl, rfl, rfl, rfl, rfl, rfl, rfl, rfl, List.Pairwise.nil, fun _ => rfl⟩

theorem Tallies.eq_of_perm {t' : SolveTotals} {facts' : List SolveFacts} (h : t.Tallies facts)
    (h' : t'.Tallies facts') (hperm : facts.Perm facts') : t = t' := by
  have hcount (p : SolveFacts → Bool) : facts.countP p = facts'.countP p := hperm.countP_eq p
  have hsum (f : SolveFacts → Nat) : (facts.map f).sum = (facts'.map f).sum := (hperm.map f).sum_nat
  have hwarnings := h.warnings.eq_of_perm h'.warnings (hperm.flatMap_right _)
  cases t
  cases t'
  rw [SolveTotals.mk.injEq]
  refine ⟨h.calls.trans (hperm.length_eq.trans h'.calls.symm), ?_, ?_, ?_, ?_, ?_, ?_, ?_, ?_, ?_, ?_, ?_, ?_,
    hwarnings⟩
  . exact h.unique.trans ((hcount _).trans h'.unique.symm)
  . exact h.singular.trans ((hcount _).trans h'.singular.symm)
  . exact h.inconsistent.trans ((hcount _).trans h'.inconsistent.symm)
  . exact h.pass.trans ((hcount _).trans h'.pass.symm)
  . exact h.degraded.trans ((hcount _).trans h'.degraded.symm)
  . exact h.fail.trans ((hcount _).trans h'.fail.symm)
  . exact h.rowSwaps.trans ((hsum _).trans h'.rowSwaps.symm)
  . exact h.steps.trans ((hsum _).trans h'.steps.symm)
  . exact h.combines.trans ((hsum _).trans h'.combines.symm)
  . exact h.swaps.trans ((hsum _).trans h'.swaps.symm)
  . exact h.pivotSwaps.trans ((hsum _).trans h'.pivotSwaps.symm)
  . exact h.aborted.trans ((hcount _).trans h'.aborted.symm)

/-!
### How the counts fit together
-/

structure IsBalanced (t : SolveTotals) : Prop where
  kinds : t.unique + t.singular + t.inconsistent = t.calls
  statuses : t.pass + t.degraded + t.fail + t.inconsistent = t.calls
  aborted_le : t.aborted ≤ t.inconsistent
  pivotSwaps_le : t.pivotSwaps ≤ t.combines
  le_steps : t.combines + t.swaps ≤ t.steps

theorem IsBalanced.record {f : SolveFacts} (h : t.IsBalanced) (hf : f.IsSound) : (t.record f).IsBalanced := by
  have hkinds := h.kinds
  have hstatuses := h.statuses
  have haborted := h.aborted_le
  rw [record_eq]
  refine ⟨?_, ?_, ?_, Nat.add_le_add h.pivotSwaps_le hf.pivotSwaps_le, ?_⟩
  . cases f.kind <;> simp <;> omega
  -- Without a status the solve counts as inconsistent, with one it does not.
  . have hstatus := hf.status_iff
    cases hvalue : f.status with
    | none =>
      have hkind := hstatus.mp hvalue
      simp [hkind]
      omega
    | some status =>
      have hkind : f.kind ≠ .inconsistent := by simp [← hstatus, hvalue]
      cases status <;> simp [hkind] <;> omega
  . have hinconsistent := hf.aborted
    dsimp only
    split
    next h' =>
      rw [if_pos (hinconsistent h')]
      omega
    next => omega
  . have hle := h.le_steps
    have hle' := hf.le_steps
    dsimp only
    omega

theorem isBalanced_ofSolves (h : ∀ f ∈ facts, f.IsReturned) : (ofSolves facts).IsBalanced := by
  have hfold : ∀ t : SolveTotals, t.IsBalanced → (facts.foldl SolveTotals.record t).IsBalanced := by
    induction facts with
    | nil => exact fun _ ht => ht
    | cons f rest ih =>
      rw [List.forall_mem_cons] at h
      exact fun t ht => ih h.right _ (ht.record h.left.isSound)
  exact hfold {} ⟨rfl, rfl, Nat.le_refl 0, Nat.le_refl 0, Nat.le_refl 0⟩

end SolveTotals

/-!
### Counts in a document
-/

namespace Document

def countAt (document : Document) (path : List String) : Int :=
  match document.find? path with
  | some (.integer i) => i
  | _ => 0

def AddsUp (total a b : Document) : Prop :=
  ∀ path, total.countAt path = a.countAt path + b.countAt path

theorem countAt_cons (document : Document) (key : String) (path : List String) :
    document.countAt (key :: path) = ((document.get? key).map (·.countAt path)).getD 0 := by
  unfold countAt
  rw [find?_cons]
  cases document.get? key with
  | some value => rfl
  | none => rfl

theorem countAt_integer_cons (i : Int) (key : String) (path : List String) : (integer i).countAt (key :: path) = 0 := by
  rw [countAt_cons]
  rfl

theorem addsUp_integer {i j k : Nat} (h : i = j + k) : AddsUp (.integer i) (.integer j) (.integer k) := by
  intro path
  cases path with
  | nil => exact congrArg Nat.cast h
  | cons key rest =>
    simp only [countAt_integer_cons]
    rfl

theorem addsUp_mapping_nil : AddsUp (.mapping []) (.mapping []) (.mapping []) := by
  intro path
  cases path with
  | nil => rfl
  | cons key rest => simp [countAt_cons, get?]

theorem AddsUp.cons {key : String} {total a b : Document} {totals as bs : List (String × Document)}
    (h : AddsUp total a b) (hrest : AddsUp (.mapping totals) (.mapping as) (.mapping bs)) :
    AddsUp (.mapping ((key, total) :: totals)) (.mapping ((key, a) :: as)) (.mapping ((key, b) :: bs)) := by
  intro path
  cases path with
  | nil => rfl
  | cons k rest =>
    have hrest := hrest (k :: rest)
    simp only [countAt_cons, get?, lookup_cons_eq_ite] at hrest ⊢
    split
    next => exact h rest
    next => exact hrest

def ofCounts (counts : List (String × Nat)) : Document :=
  .mapping (counts.map fun (code, k) => (code, .integer k))

theorem get?_ofCounts (counts : List (String × Nat)) (code : String) :
    (ofCounts counts).get? code = (counts.lookup code).map fun k => .integer k := by
  change List.lookup code (counts.map fun (code, k) => (code, Document.integer k)) = _
  induction counts with
  | nil => rfl
  | cons first rest ih =>
    obtain ⟨name, k⟩ := first
    rw [List.map_cons, lookup_cons_eq_ite, lookup_cons_eq_ite, ih]
    dsimp only
    split
    next => rfl
    next => rfl

theorem addsUp_ofCounts {totals as bs : List (String × Nat)}
    (h : ∀ code, (totals.lookup code).getD 0 = (as.lookup code).getD 0 + (bs.lookup code).getD 0) :
    AddsUp (ofCounts totals) (ofCounts as) (ofCounts bs) := by
  have hcount (counts : List (String × Nat)) (code : String) :
      (ofCounts counts).countAt [code] = ((counts.lookup code).getD 0 : Nat) := by
    rw [countAt_cons, get?_ofCounts]
    cases counts.lookup code with
    | none => rfl
    | some k => rfl
  have hdeeper (counts : List (String × Nat)) (code key : String) (path : List String) :
      (ofCounts counts).countAt (code :: key :: path) = 0 := by
    rw [countAt_cons, get?_ofCounts]
    cases counts.lookup code with
    | none => rfl
    | some k => exact countAt_integer_cons k key path
  intro path
  match path with
  | [] => rfl
  | [code] => rw [hcount, hcount, hcount, h, Int.natCast_add]
  | code :: key :: path => rw [hdeeper, hdeeper, hdeeper, Int.add_zero]

end Document

namespace SolveTotals

theorem Tallies.addsUp {t a b : SolveTotals} {xs ys : List SolveFacts} (h : t.Tallies (xs ++ ys)) (ha : a.Tallies xs)
    (hb : b.Tallies ys) : Document.AddsUp t.document a.document b.document := by
  -- The counts over two batches of solves are the sums of the counts over each.
  have hwarnings (code : String) :
      (t.warnings.lookup code).getD 0 = (a.warnings.lookup code).getD 0 + (b.warnings.lookup code).getD 0 := by
    rw [h.warnings.getD_lookup, ha.warnings.getD_lookup, hb.warnings.getD_lookup, List.flatMap_append,
      List.count_append]
  refine .cons (Document.addsUp_integer ?_) (.cons ?kinds (.cons ?statuses (.cons (Document.addsUp_integer ?_)
    (.cons (Document.addsUp_integer ?_) (.cons (Document.addsUp_integer ?_) (.cons (Document.addsUp_integer ?_)
    (.cons (Document.addsUp_integer ?_) (.cons (Document.addsUp_integer ?_)
    (.cons (Document.addsUp_ofCounts hwarnings) Document.addsUp_mapping_nil)))))))))
  case kinds =>
    refine .cons (Document.addsUp_integer ?_) (.cons (Document.addsUp_integer ?_)
      (.cons (Document.addsUp_integer ?_) Document.addsUp_mapping_nil))
    . rw [h.unique, ha.unique, hb.unique, List.countP_append]
    . rw [h.singular, ha.singular, hb.singular, List.countP_append]
    . rw [h.inconsistent, ha.inconsistent, hb.inconsistent, List.countP_append]
  case statuses =>
    refine .cons (Document.addsUp_integer ?_) (.cons (Document.addsUp_integer ?_)
      (.cons (Document.addsUp_integer ?_) Document.addsUp_mapping_nil))
    . rw [h.pass, ha.pass, hb.pass, List.countP_append]
    . rw [h.degraded, ha.degraded, hb.degraded, List.countP_append]
    . rw [h.fail, ha.fail, hb.fail, List.countP_append]
  . rw [h.calls, ha.calls, hb.calls, List.length_append]
  . rw [h.rowSwaps, ha.rowSwaps, hb.rowSwaps, List.map_append, List.sum_append]
  . rw [h.steps, ha.steps, hb.steps, List.map_append, List.sum_append]
  . rw [h.combines, ha.combines, hb.combines, List.map_append, List.sum_append]
  . rw [h.swaps, ha.swaps, hb.swaps, List.map_append, List.sum_append]
  . rw [h.pivotSwaps, ha.pivotSwaps, hb.pivotSwaps, List.map_append, List.sum_append]
  . rw [h.aborted, ha.aborted, hb.aborted, List.countP_append]

end SolveTotals

theorem summary_of_solves (t : Thresholds) (xs ys : List SolveFacts) (hxs : ∀ f ∈ xs, f.IsReturned) :
    let count (facts : List SolveFacts) (path : List String) : Int :=
      (t.snapshot facts).countAt ("solve_summary" :: path)
    (∀ path, count (xs ++ ys) path = count xs path + count ys path) ∧
    (∀ zs, xs.Perm zs → t.snapshot xs = t.snapshot zs) ∧
    (∃ totals : SolveTotals, totals.Tallies xs ∧
      (t.snapshot xs).find? ["solve_summary"] = some totals.document ∧
      (t.snapshot xs).find? ["solve_summary", "warning_code_counts"] = some (.ofCounts totals.warnings) ∧
      Document.KeysAscend totals.warnings ∧ ∀ entry ∈ totals.warnings, 0 < entry.2) ∧
    count xs ["total_solve_calls"] = xs.length ∧
    count xs ["kind_counts", "unique"] + count xs ["kind_counts", "singular"] +
      count xs ["kind_counts", "inconsistent"] = count xs ["total_solve_calls"] ∧
    count xs ["residual_status_counts", "pass"] + count xs ["residual_status_counts", "degraded"] +
      count xs ["residual_status_counts", "fail"] + count xs ["kind_counts", "inconsistent"] =
        count xs ["total_solve_calls"] ∧
    count xs ["aborted_eliminations"] ≤ count xs ["kind_counts", "inconsistent"] ∧
    count xs ["total_pairwise_swaps"] ≤ count xs ["total_row_combines"] ∧
    count xs ["total_row_combines"] + count xs ["total_pivot_swaps"] ≤ count xs ["total_elimination_steps"] := by
  intro count
  have hcount (facts : List SolveFacts) (path : List String) :
      count facts path = (SolveTotals.ofSolves facts).document.countAt path :=
    Document.countAt_cons _ _ _
  have htallies := SolveTotals.tallies_ofSolves xs
  have hbalanced := SolveTotals.isBalanced_ofSolves hxs
  refine ⟨?_, ?_, ⟨_, htallies, rfl, rfl, htallies.warnings.ascend, htallies.warnings.pos⟩, ?_, ?_, ?_, ?_, ?_, ?_⟩
  . intro path
    rw [hcount, hcount, hcount]
    exact (SolveTotals.tallies_ofSolves _).addsUp htallies (SolveTotals.tallies_ofSolves ys) path
  . intro zs hperm
    unfold Thresholds.snapshot
    rw [htallies.eq_of_perm (SolveTotals.tallies_ofSolves zs) hperm]
  . exact congrArg Nat.cast htallies.calls
  . exact congrArg Nat.cast hbalanced.kinds
  . exact congrArg Nat.cast hbalanced.statuses
  . exact Int.ofNat_le.mpr hbalanced.aborted_le
  . exact Int.ofNat_le.mpr hbalanced.pivotSwaps_le
  . exact Int.ofNat_le.mpr hbalanced.le_steps

def lineFacts : List SolveFacts := [
  ⟨.singular, some .pass, 1, ⟨3, 3, 2, 0, 0, [0, 1], [2], false⟩, ["W_NUM_ILL_CONDITIONED"]⟩,
  ⟨.inconsistent, none, 2, ⟨1, 1, 0, 0, 0, [], [], true⟩, ["W_NUM_ILL_CONDITIONED"]⟩]

theorem summary_of_lineFacts :
    let count (facts : List SolveFacts) (path : List String) : Int :=
      (Thresholds.default.snapshot facts).countAt ("solve_summary" :: path)
    (∀ f ∈ lineFacts, f.IsReturned) ∧
      Thresholds.default.snapshot lineFacts = Thresholds.default.snapshot lineFacts.reverse ∧
      count lineFacts ["total_solve_calls"] = 2 ∧ count lineFacts ["kind_counts", "inconsistent"] = 1 ∧
      count lineFacts ["aborted_eliminations"] ≤ count lineFacts ["kind_counts", "inconsistent"] ∧
      count lineFacts ["warning_code_counts", "W_NUM_ILL_CONDITIONED"] = 2 ∧
      count (lineFacts ++ lineFacts) ["warning_code_counts", "W_NUM_ILL_CONDITIONED"] = 4 := by
  intro count
  have hreturned : ∀ f ∈ lineFacts, f.IsReturned := by
    let contradictory : Solver 3 :=
      .ofSystem ⟨3, contradictoryLines, by decide, by decide +kernel⟩ .default .standard Numerics.standard.estimator
    unfold lineFacts
    simp only [List.forall_mem_cons]
    exact ⟨unorderedLines.isReturned (by decide +kernel), contradictory.isReturned (by decide +kernel), nofun⟩
  have hcounted : count lineFacts ["warning_code_counts", "W_NUM_ILL_CONDITIONED"] = 2 := by decide +kernel
  obtain ⟨hsum, horder, -, hcalls, -, -, haborted, -⟩ := summary_of_solves .default lineFacts lineFacts hreturned
  refine ⟨hreturned, horder _ lineFacts.reverse_perm.symm, hcalls, by decide +kernel, haborted, hcounted, ?_⟩
  exact (hsum _).trans (congrArg₂ (· + ·) hcounted hcounted)

end RowSweep
