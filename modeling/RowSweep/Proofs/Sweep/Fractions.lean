import RowSweep.Proofs.Multipliers.Fractions
import RowSweep.Proofs.Sweep.InStep

/-!
This module contains systems of values below one half whose first column has no zero. The first pass combines rows as
they are given, and it leaves the same rows whether or not the system is multiplied by a power of two before. So the
later passes cannot tell.
-/

namespace RowSweep

open Binary64

attribute [local irreducible] unitsPerOne rangeEnd

structure SweepSettings.IsOrdinary (settings : SweepSettings) : Prop where
  pivoting : settings.pairwisePivoting = true
  within : Within unitsPerOne settings.zeroSnap
  le_magnitude : 2 ^ 1030 ≤ settings.zeroSnap.magnitude

/--
A row of a system beside the same row of the system times `2 ^ k`, with an entry in column `c`.
-/
structure Row.IsGiven (k : Int) (c : Fin n) (row row' : Row n) : Prop where
  scaled : row.Scaled k row'
  left : ∀ j : Fin n, row[j].IsFraction
  right : ∀ j : Fin n, row'[j].IsFraction
  entry : row[c].isZero = false

namespace Step

variable {settings : SweepSettings} {g g' : Grid m (n + 1)} {c : Fin n} {r : Nat} {h : r + 1 < m} {k : Int}

/-!
### Rows as they are given
-/

theorem action_of_merger? {merger : Merger (n + 1)} (hr : r < m) (hmerger : merger? settings g c r h = some merger)
    (hpivoting : settings.pairwisePivoting = true) (hscaled : merger.multipliers.integral = false) :
    merger.action =
      if g[r + 1][c.castSucc].abs.lt g[r][c.castSucc].abs then .swapCombine else .combine := by
  unfold merger? at hmerger
  dsimp only at hmerger
  split at hmerger
  next => cases hmerger
  next =>
    split at hmerger
    next hswap =>
      rw [Bool.and_eq_true] at hswap
      cases hmerger
      rw [if_pos hswap.right]
    next hswap =>
      cases hmerger
      dsimp only at hscaled
      rw [hpivoting, hscaled, Bool.not_false, Bool.true_and, Bool.true_and] at hswap
      rw [if_neg hswap]

namespace Merges

variable {upper lower upper' lower' : Row (n + 1)} {merger merger' : Merger (n + 1)}

theorem integral_eq_false (merges : Merges settings upper lower c merger)
    (hupper : merger.upper[c.castSucc].IsFraction) : merger.multipliers.integral = false := by
  have hpairing := merges.pairing
  generalize merger.multipliers = k at hpairing ⊢
  cases hpairing with
  | scaled => rfl
  | whole ratio entries exact =>
    obtain ⟨x, y, hx, -⟩ := Multipliers.integral?_eq_some.mp entries
    have hinteger := (exactInteger?_eq_some.mp hx).left
    rw [integer?_eq_none_of_lt hupper.magnitude_lt_unitsPerOne merges.upperEntry] at hinteger
    cases hinteger

section scaling

variable (merges : Merges settings upper lower c merger) (hscaled : merger.multipliers.integral = false)
variable (hupper : ∀ j : Fin (n + 1), merger.upper[j].IsFraction)
variable (hlower : ∀ j : Fin (n + 1), merger.lower[j].IsFraction)

include merges hscaled hupper hlower

theorem isNormal (ordinary : settings.IsOrdinary) : merger.IsNormal c := by
  have hzeroSnap := merges.zeroSnap_eq
  rw [hscaled, if_neg Bool.false_ne_true] at hzeroSnap
  refine ⟨?_, ?_⟩
  . exact Multipliers.isComparable_of_isFraction (hupper _) (hlower _) merges.upperEntry merges.lowerEntry
  . intro j
    rw [merges.pairing.eq_scaling hscaled, hzeroSnap]
    exact Multipliers.isNormalCell_scaling (hupper _) (hlower _) merges.upperEntry merges.lowerEntry (hupper j)
      (hlower j) ordinary.le_magnitude

theorem row_lt_one (j : Fin (n + 1)) : merger.row[j].magnitude < unitsPerOne := by
  unfold Merger.row
  rw [Multipliers.getElem_combine, merges.pairing.eq_scaling hscaled]
  exact (Multipliers.combineCell_lt_one (hupper _) (hlower _) merges.upperEntry (hupper j) (hlower j) _).right

end scaling

section given

variable (merges : Merges settings upper lower c merger) (merges' : Merges settings upper' lower' c merger')
variable (hu : merger.upper.IsGiven k c.castSucc merger'.upper) (hl : merger.lower.IsGiven k c.castSucc merger'.lower)
variable (ordinary : settings.IsOrdinary)

include merges merges' hu hl ordinary

theorem scaled_row (hM : IsCellBound M) : merger.row.Scaled k merger'.row := by
  have hscaled := merges.integral_eq_false (hu.left _)
  have hscaled' := merges'.integral_eq_false (hu.right _)
  have hnormal := merges.isNormal hscaled hu.left hl.left ordinary
  have hnormal' := merges'.isNormal hscaled' hu.right hl.right ordinary
  have hwithin : ∀ {x : Binary64}, x.IsFraction → Within M x := by
    intro x hx
    apply hx.within.mono
    obtain ⟨-, -, hlt⟩ := fits_largestBelow
    have := hM.exactLimit_le
    have := Nat.le_mul_of_pos_left unitsPerOne (Nat.two_pow_pos 53)
    omega
  have hzeroSnap : merger'.zeroSnap = merger.zeroSnap := by
    rw [merges.zeroSnap_eq, merges'.zeroSnap_eq, hscaled, hscaled']
  have hmultipliers : merger.multipliers.Scaled 0 (k - k) merger'.multipliers := by
    have hshifted := Multipliers.shifted_scaling (hu.scaled.shifted c.castSucc) (hl.scaled.shifted c.castSucc)
      merges.upperEntry merges.lowerEntry (merges.ordered ordinary.pivoting hscaled)
      (merges'.ordered ordinary.pivoting hscaled') hnormal.ratio hnormal'.ratio
    obtain ⟨htarget, hcopy⟩ := Multipliers.isNegative_scaling (hu.left c.castSucc).left (hl.left c.castSucc).left
      merges.upperEntry
    obtain ⟨htarget', hcopy'⟩ := Multipliers.isNegative_scaling (hu.right c.castSucc).left (hl.right c.castSucc).left
      merges'.upperEntry
    rw [merges.pairing.eq_scaling hscaled, merges'.pairing.eq_scaling hscaled']
    exact ⟨⟨hshifted.target, by rw [htarget, htarget']⟩, ⟨hshifted.copy, by rw [hcopy, hcopy']⟩, hshifted.sign_eq⟩
  have hcells' := hnormal'.cells
  rw [hzeroSnap] at hcells'
  have hwithinSnap : Within unitsPerOne merger.zeroSnap := by
    rw [merges.zeroSnap_eq, hscaled, if_neg Bool.false_ne_true]
    exact ordinary.within
  have hrow := hmultipliers.combine (by ring) hnormal.cells hcells'
    (merges.isFinite_sum hM (fun j => hwithin (hu.left j)) fun j => hwithin (hl.left j))
    (merges'.isFinite_sum hM (fun j => hwithin (hu.right j)) fun j => hwithin (hl.right j)) hwithinSnap hu.scaled
    hl.scaled
  rw [add_zero] at hrow
  unfold Merger.row
  rwa [hzeroSnap]

theorem keepsStep_of_isGiven (hM : IsCellBound M) (haction : merger'.action = merger.action) :
    merger.KeepsStep merger' c ∧ merger'.row.rescale.1 = merger.row.rescale.1 := by
  have hscaled := merges.integral_eq_false (hu.left _)
  have hscaled' := merges'.integral_eq_false (hu.right _)
  have hrow := merges.scaled_row merges' hu hl ordinary hM
  obtain ⟨heq, hdivisor⟩ := hrow.rescale_of_lt_one (merges.row_lt_one hscaled hu.left hl.left)
    (merges'.row_lt_one hscaled' hu.right hl.right)
  refine ⟨Or.inr ⟨⟨haction, hscaled'.trans hscaled.symm, hdivisor⟩, ?_, ?_⟩, heq⟩
  . exact merges.isNormal hscaled hu.left hl.left ordinary
  . exact merges'.isNormal hscaled' hu.right hl.right ordinary

end given

end Merges

/-!
### Pairs of rows
-/

theorem ofPair_of_isGiven (hr : r < m) (hM : IsCellBound M) (ordinary : settings.IsOrdinary)
    (hupper : Row.IsGiven k c.castSucc g[r] g'[r]) (hlower : Row.IsGiven k c.castSucc g[r + 1] g'[r + 1]) :
    (∀ merger ∈ merger? settings g c r h, ∀ merger' ∈ merger? settings g' c r h, merger.KeepsStep merger' c) ∧
      (ofPair settings g' c r h).grid[r] = (ofPair settings g c r h).grid[r] ∧
        Row.IsGiven k c.castSucc (ofPair settings g c r h).grid[r + 1] (ofPair settings g' c r h).grid[r + 1] := by
  have hentry : ∀ {row row' : Row (n + 1)}, Row.IsGiven k c.castSucc row row' → row'[c.castSucc].isZero = false := by
    intro row row' hrow
    rw [(hrow.scaled.shifted c.castSucc).isZero_eq]
    exact hrow.entry
  obtain ⟨merger, hmerger⟩ : ∃ merger, merger? settings g c r h = some merger :=
    (exists_merger?_iff hr).mpr ⟨hupper.entry, hlower.entry⟩
  obtain ⟨merger', hmerger'⟩ : ∃ merger', merger? settings g' c r h = some merger' :=
    (exists_merger?_iff hr).mpr ⟨hentry hupper, hentry hlower⟩
  have merges := merges_of_merger? hr hmerger
  have merges' := merges_of_merger? hr hmerger'
  obtain ⟨hfraction, -⟩ := merges.forall_rows (P := fun row => ∀ j : Fin (n + 1), row[j].IsFraction)
    hupper.left hlower.left
  obtain ⟨hfraction', -⟩ := merges'.forall_rows (P := fun row => ∀ j : Fin (n + 1), row[j].IsFraction)
    hupper.right hlower.right
  have haction : merger'.action = merger.action := by
    rw [action_of_merger? hr hmerger ordinary.pivoting (merges.integral_eq_false (hfraction _)),
      action_of_merger? hr hmerger' ordinary.pivoting (merges'.integral_eq_false (hfraction' _)),
      (hlower.scaled.shifted c.castSucc).abs.lt_eq (hupper.scaled.shifted c.castSucc).abs]
  obtain ⟨hu, hl⟩ := merges.rows_rel (R := Row.IsGiven k c.castSucc) merges' haction hupper hlower
  obtain ⟨hkeeps, hrow⟩ := merges.keepsStep_of_isGiven merges' hu hl ordinary hM haction
  have happlies := applies_ofPair hr hmerger
  have happlies' := applies_ofPair hr hmerger'
  rw [happlies.row, happlies'.row, happlies.below, happlies'.below, hmerger, hmerger']
  refine ⟨?_, hrow, hl⟩
  intro m hm m' hm'
  cases hm
  cases hm'
  exact hkeeps

theorem merger?_congr (hr : r < m) (hupper : g'[r] = g[r]) (hlower : g'[r + 1] = g[r + 1]) :
    merger? settings g' c r h = merger? settings g c r h := by
  unfold merger? multipliers
  simp only [hupper, hlower]

theorem getElem_ofPair_congr (hr : r < m) (hupper : g'[r] = g[r]) (hlower : g'[r + 1] = g[r + 1]) {i : Nat}
    (hi : i < m) (heq : g'[i] = g[i]) :
    (ofPair settings g' c r h).grid[i] = (ofPair settings g c r h).grid[i] := by
  have hmergers : merger? settings g' c r h = merger? settings g c r h := merger?_congr hr hupper hlower
  cases hmerger : merger? settings g c r h with
  | none =>
    rw [ofPair_of_merger?_eq_none hr hmerger, ofPair_of_merger?_eq_none hr (hmergers.trans hmerger), hupper]
    split
    . exact heq
    . show (g'.swap r (r + 1))[i] = (g.swap r (r + 1))[i]
      rw [Vector.getElem_swap, Vector.getElem_swap, heq, hupper, hlower]
  | some merger =>
    have happlies := applies_ofPair hr hmerger
    have happlies' := applies_ofPair hr (hmergers.trans hmerger)
    by_cases hir : i = r
    . subst hir
      rw [happlies.row, happlies'.row]
    . by_cases hir1 : i = r + 1
      . subst hir1
        rw [happlies.below, happlies'.below]
      . rw [(effect_ofPair settings g c r hr h).getElem_of_ne hi hir hir1,
          (effect_ofPair settings g' c r hr h).getElem_of_ne hi hir hir1, heq]

end Step

namespace Sweep

variable {settings : SweepSettings} {g g' : Grid m (n + 1)} {h : n ≤ m} {k : Int}

/--
What holds of a sweep and of the one with the scaled system before pair `r` of pass `c`. In the first pass the rows
from `r` on are as given, and the open rows above, or all of them later, are the same in both.
-/
structure FromFractions (k : Int) (c r : Nat) (s s' : Sweep m n) : Prop where
  equal : ∀ i (hi : i < m), i < s.openRows → (c = 0 → i < r) → s'.grid[i] = s.grid[i]
  given : c = 0 → ∀ i (hi : i < m), r ≤ i → Row.IsGiven k (0 : Fin (n + 1)) s.grid[i] s'.grid[i]

namespace FromFractions

section step

variable (hM : Step.IsCellBound M) (ordinary : settings.IsOrdinary)

include hM ordinary

theorem step (c : Fin n) (r : Nat) (hr : r + 1 < m) (reached : Reaches settings g h c r hr)
    (hQ : FromFractions k c r (before settings g h c r (Nat.lt_of_succ_lt hr))
      (before settings g' h c r (Nat.lt_of_succ_lt hr))) :
    KeepsStepAt settings g g' h c r hr ∧
      FromFractions k c (r + 1) ((before settings g h c r (Nat.lt_of_succ_lt hr)).record (stepAt settings g h c r hr))
        ((before settings g' h c r (Nat.lt_of_succ_lt hr)).record (stepAt settings g' h c r hr)) := by
  have hr' := Nat.lt_of_succ_lt hr
  have hopen : (before settings g h c r hr').openRows = (upTo settings g h c).openRows := (before_frame c hr').left
  have hlt := reached.lt
  by_cases hc : c.val = 0
  . have hcolumn : c.castSucc = 0 := Fin.ext hc
    have hgiven := hQ.given hc
    rw [← hcolumn] at hgiven
    obtain ⟨hkeeps, hupper, hlower⟩ := Step.ofPair_of_isGiven (h := hr) hr' hM ordinary
      (hgiven r hr' (Nat.le_refl r)) (hgiven (r + 1) hr (Nat.le_succ r))
    have hother : ∀ {s : Sweep m n} {i : Nat} (hi : i < m), i ≠ r → i ≠ r + 1 →
        (Step.ofPair settings s.grid c r hr).grid[i] = s.grid[i] :=
      fun hi hir hir1 => (Step.effect_ofPair settings _ c r hr' hr).getElem_of_ne hi hir hir1
    refine ⟨hkeeps, ?_, ?_⟩
    . intro i hi hiopen hir
      rw [openRows_record] at hiopen
      rw [grid_record, grid_record]
      unfold stepAt
      by_cases heq : i = r
      . subst heq
        exact hupper
      . have hir := hir hc
        rw [hother hi heq (by omega), hother hi heq (by omega)]
        exact hQ.equal i hi hiopen fun _ => by omega
    . intro _ i hi hri
      rw [grid_record, grid_record, ← hcolumn]
      unfold stepAt
      by_cases heq : i = r + 1
      . subst heq
        exact hlower
      . rw [hother hi (by omega) heq, hother hi (by omega) heq]
        exact hgiven i hi (by omega)
  . have hupper := hQ.equal r hr' (by omega) fun hzero => absurd hzero hc
    have hlower := hQ.equal (r + 1) hr (by omega) fun hzero => absurd hzero hc
    refine ⟨?_, ?_, fun hzero => absurd hzero hc⟩
    . intro merger hmerger merger' hmerger'
      unfold mergerAt? at hmerger hmerger'
      rw [Step.merger?_congr hr' hupper hlower] at hmerger'
      exact Or.inl (Option.some.inj (hmerger'.symm.trans hmerger))
    . intro i hi hiopen _
      rw [openRows_record] at hiopen
      rw [grid_record, grid_record]
      exact Step.getElem_ofPair_congr hr' hupper hlower hi
        (hQ.equal i hi hiopen fun hzero => absurd hzero hc)

end step

theorem settle (c : Fin n) (hstart : c.val = 0 → (upTo settings g h c).openRows = n)
    (hQ : FromFractions k c ((upTo settings g h c).openRows - 1) (swept settings g h c) (swept settings g' h c)) :
    FromFractions k (c + 1) 0 ((swept settings g h c).settle c) ((swept settings g' h c).settle c) := by
  have hopen := (swept_frame settings g h c).left
  refine ⟨?_, fun hzero => absurd hzero (Nat.succ_ne_zero _)⟩
  intro i hi hiopen _
  rw [grid_settle, grid_settle]
  cases settled_settle c (swept settings g h c) with
  | pivot hk hlt hentry hopen' =>
    exact hQ.equal i hi (by omega) fun _ => by omega
  | free hentry hopen' =>
    by_cases hc : c.val = 0
    . -- The lowest row still has its entry in the first column, so that column has a pivot.
      have hn := hstart hc
      have hpos := c.isLt
      have hlowest : n - 1 < m := by omega
      have hzero := hentry (n - 1) hlowest (by omega)
      have hcolumn : c.castSucc = 0 := Fin.ext hc
      rw [hcolumn, (hQ.given hc (n - 1) hlowest (by omega)).entry] at hzero
      cases hzero
    . exact hQ.equal i hi (by omega) fun hzero => absurd hzero hc

end FromFractions

end Sweep

/-!
### The run
-/

namespace Grid

def IsFractional (g : Grid m (n + 1)) : Prop :=
  (∀ (i : Fin m) (j : Fin (n + 1)), g[i][j].IsFraction) ∧ ∀ i : Fin m, g[i][(0 : Fin (n + 1))].isZero = false

instance (g : Grid m (n + 1)) : Decidable g.IsFractional :=
  inferInstanceAs (Decidable (_ ∧ _))

theorem IsFractional.grid_orderRows {g : Grid m (n + 1)} (hg : g.IsFractional) : g.orderRows.grid = g := by
  have hplace : ∀ i : Fin m, RowOrder.place ⟨g, 0, #[]⟩ i = ⟨g, 0, #[]⟩ := by
    intro i
    have hentry : RowOrder.startsWithZero g[i] = false := hg.right i
    unfold RowOrder.place
    dsimp only
    rw [hentry, if_neg Bool.false_ne_true]
  unfold orderRows
  rw [List.foldl_fixed' hplace]

theorem IsFractional.inStep_run {settings : SweepSettings} {g g' : Grid m (n + 1)} {h : n ≤ m} {k : Int}
    (hg : g.IsFractional) (hg' : g'.IsFractional) (hscaled : ∀ i : Fin m, Row.Scaled k g[i] g'[i])
    (ordinary : settings.IsOrdinary) (hM : Step.IsCellBound M) (hwithin : g.Within M) (hwithin' : g'.Within M) :
    (Sweep.run settings g h).InStep (Sweep.run settings g' h) := by
  apply Sweep.inStep_run_of_step (Q := Sweep.FromFractions k) hM hwithin hwithin' ordinary.pivoting ordinary.within
  case hstep => exact fun c r hr reached _ _ hQ => Sweep.FromFractions.step hM ordinary c r hr reached hQ
  case hpass => exact fun c hm hQ => ⟨hQ.equal, hQ.given⟩
  case hsettle =>
    intro c _ hQ
    apply Sweep.FromFractions.settle c _ hQ
    intro hc
    rw [hc]
    rfl
  case hin => exact fun i => ⟨k, (hscaled i).shifted⟩
  case hQ =>
    refine ⟨fun i hi _ hr => absurd (hr rfl) (Nat.not_lt_zero i), ?_⟩
    intro _ i hi _
    exact ⟨hscaled ⟨i, hi⟩, hg.left ⟨i, hi⟩, hg'.left ⟨i, hi⟩, hg.right ⟨i, hi⟩⟩

end Grid

end RowSweep
