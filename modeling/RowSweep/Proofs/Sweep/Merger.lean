import RowSweep.Proofs.Sweep.Step

/-!
This module contains what a step combines: the two rows in the order in which they are taken, the multipliers, and the
part of its terms below which a sum is noise.
-/

namespace RowSweep

structure Merger (n : Nat) where
  action : Action
  multipliers : Multipliers
  zeroSnap : Binary64
  upper : Row n
  lower : Row n
  deriving DecidableEq

namespace Merger

def row (merger : Merger n) : Row n :=
  merger.multipliers.combine merger.zeroSnap merger.upper merger.lower

end Merger

namespace Step

def merger? (settings : SweepSettings) (g : Grid m (n + 1)) (c : Fin n) (r : Nat) (h : r + 1 < m) :
    Option (Merger (n + 1)) :=
  have hr := Nat.lt_of_succ_lt h
  let upper := g[r][c.castSucc]
  let lower := g[r + 1][c.castSucc]
  let k := multipliers settings g r h upper lower
  if upper.isZero || lower.isZero then none
  else if settings.pairwisePivoting && !k.integral && lower.abs.lt upper.abs then
    some ⟨.swapCombine, .scaling lower upper, settings.zeroSnap, g[r + 1], g[r]⟩
  else some ⟨.combine, k, if k.integral then .zero else settings.zeroSnap, g[r], g[r + 1]⟩

structure Merges (settings : SweepSettings) (upper lower : Row (n + 1)) (c : Fin n) (merger : Merger (n + 1)) :
    Prop where
  upperEntry : merger.upper[c.castSucc].isZero = false
  lowerEntry : merger.lower[c.castSucc].isZero = false
  pairing : Pairing settings merger.upper merger.lower c merger.multipliers
  zeroSnap_eq : merger.zeroSnap = if merger.multipliers.integral then .zero else settings.zeroSnap
  ordered : settings.pairwisePivoting = true → merger.multipliers.integral = false →
    merger.lower[c.castSucc].abs.lt merger.upper[c.castSucc].abs = false
  rows : (merger.action = .combine ∧ merger.upper = upper ∧ merger.lower = lower) ∨
    (merger.action = .swapCombine ∧ merger.upper = lower ∧ merger.lower = upper)

/--
Whether a step on row `r` combines two rows in the given way and tells how. The combined row takes the place of the
upper row, and the other row that of the lower one.
-/
structure Applies (step : Step m n) (merger : Merger n) (r : Nat) (hr : r < m) (h : r + 1 < m) : Prop where
  action : step.action = merger.action
  target : step.targetMultiplier = merger.multipliers.target
  copy : step.copyMultiplier = merger.multipliers.copy
  sign : step.sign = merger.multipliers.sign
  divisor : step.divisor = merger.row.rescale.2
  row : step.grid[r] = merger.row.rescale.1
  below : step.grid[r + 1] = merger.lower

variable {settings : SweepSettings} {g : Grid m (n + 1)} {c : Fin n} {r : Nat} {hr : r < m} {h : r + 1 < m}
variable {merger : Merger (n + 1)}

theorem merges_of_merger? (hr : r < m) (hmerger : merger? settings g c r h = some merger) :
    Merges settings g[r] g[r + 1] c merger := by
  unfold merger? at hmerger
  dsimp only at hmerger
  split at hmerger
  next => cases hmerger
  next hentries =>
    rw [Bool.or_eq_true, not_or, Bool.not_eq_true, Bool.not_eq_true] at hentries
    obtain ⟨hupper, hlower⟩ := hentries
    split at hmerger
    next hswap =>
      rw [Bool.and_eq_true] at hswap
      cases hmerger
      exact ⟨hlower, hupper, Pairing.scaled, rfl, fun _ _ => Binary64.lt_asymm hswap.right, Or.inr ⟨rfl, rfl, rfl⟩⟩
    next hswap =>
      cases hmerger
      refine ⟨hupper, hlower, multipliers_pairing settings g c hr h, rfl, ?_, Or.inl ⟨rfl, rfl, rfl⟩⟩
      intro hpivoting hintegral
      dsimp only at hintegral ⊢
      simpa [hpivoting, hintegral] using hswap

theorem Merges.forall_rows {P : Row (n + 1) → Prop} {upper lower : Row (n + 1)}
    (merges : Merges settings upper lower c merger) (hupper : P upper) (hlower : P lower) :
    P merger.upper ∧ P merger.lower := by
  cases merges.rows with
  | inl hrows =>
    rw [hrows.right.left, hrows.right.right]
    exact ⟨hupper, hlower⟩
  | inr hrows =>
    rw [hrows.right.left, hrows.right.right]
    exact ⟨hlower, hupper⟩

theorem Merges.within (hr : r < m) (hg : g.Within M) (merges : Merges settings g[r] g[r + 1] c merger) :
    (∀ j : Fin (n + 1), Binary64.Within M merger.upper[j]) ∧
      ∀ j : Fin (n + 1), Binary64.Within M merger.lower[j] :=
  merges.forall_rows (P := fun row => ∀ j : Fin (n + 1), Binary64.Within M row[j]) (hg ⟨r, hr⟩) (hg ⟨r + 1, h⟩)

theorem applies_ofPair (hr : r < m) (hmerger : merger? settings g c r h = some merger) :
    (ofPair settings g c r h).Applies merger r hr h := by
  unfold merger? at hmerger
  dsimp only at hmerger
  unfold ofPair
  dsimp only
  split at hmerger
  next => cases hmerger
  next hentries =>
    rw [Bool.or_eq_true, not_or, Bool.not_eq_true, Bool.not_eq_true] at hentries
    rw [hentries.left, hentries.right, if_neg Bool.false_ne_true, if_neg Bool.false_ne_true]
    split at hmerger
    next hswap =>
      cases hmerger
      rw [if_pos hswap]
      refine ⟨rfl, rfl, rfl, rfl, ?_, ?_, ?_⟩
      . rw [combined_divisor hr, Vector.getElem_swap_left, Vector.getElem_swap_right]
        rfl
      . rw [combined_getElem_self, Vector.getElem_swap_left, Vector.getElem_swap_right]
        rfl
      . rw [combined_getElem_ne h (by omega), Vector.getElem_swap_right]
    next hswap =>
      cases hmerger
      rw [if_neg hswap]
      exact ⟨rfl, rfl, rfl, rfl, combined_divisor hr, combined_getElem_self, combined_getElem_ne h (by omega)⟩

theorem ofPair_of_merger?_eq_none (hr : r < m) (hmerger : merger? settings g c r h = none) :
    ofPair settings g c r h =
      if g[r][c.castSucc].isZero then plain c r .skip g else plain c r .swap (g.swap r (r + 1)) := by
  unfold merger? at hmerger
  dsimp only at hmerger
  unfold ofPair
  dsimp only
  split
  next => rfl
  next hupper =>
    rw [Bool.not_eq_true] at hupper
    rw [hupper, Bool.false_or] at hmerger
    split at hmerger
    next hlower => rw [if_pos hlower]
    next => split at hmerger <;> cases hmerger

end Step

end RowSweep
