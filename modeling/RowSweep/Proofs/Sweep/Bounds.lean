import RowSweep.Proofs.Sweep.Run

/-!
This module contains bounds on the cells of a sweep. From magnitudes below `2 ^ 1022` on no cell reaches that
magnitude in any state of the sweep, and no divisor leaves the range.
-/

namespace RowSweep

open Binary64

attribute [local irreducible] unitsPerOne rangeEnd

namespace Grid

def IsBounded (g : Grid m n) : Prop :=
  ∀ (i : Fin m) (j : Fin n), g[i][j].abs.lt (.twoPow 1022) = true

instance (g : Grid m n) : Decidable g.IsBounded :=
  inferInstanceAs (Decidable (∀ (i : Fin m) (j : Fin n), g[i][j].abs.lt (.twoPow 1022) = true))

end Grid

theorem Binary64.magnitude_lt_of_lt_twoPow {x : Binary64} {k : Int} (hlow : -1074 ≤ k) (hhigh : k < 1024)
    (h : lt x.abs (.twoPow k) = true) :
    x.isFinite = true ∧ x.magnitude < 2 ^ (k + 1074).toNat := by
  obtain ⟨hfinite, hpow⟩ := twoPow_spec hlow hhigh
  have hx : x.isFinite = true := by
    obtain ⟨s, u, hu, heq⟩ := exists_of_isFinite hfinite
    rw [heq] at h
    cases x with
    | nan => cases h
    | infinite s => cases h
    | finite s u hu => rfl
  rw [lt_iff (by rwa [isFinite_abs]) hfinite, units_abs] at h
  refine ⟨hx, ?_⟩
  rw [← hpow]
  unfold magnitude at *
  omega

namespace Grid

theorem IsBounded.exists_isCellBound {g : Grid m n} (h : g.IsBounded) :
    ∃ M, Step.IsCellBound M ∧ g.Within M := by
  obtain ⟨e, he⟩ : ∃ e, e = 2043 := ⟨_, rfl⟩
  have htop : (2 ^ 53 - 1) * 2 ^ e < 2 ^ (53 + e) := by
    rw [Nat.pow_add]
    exact Nat.mul_lt_mul_of_pos_right (by decide) (Nat.two_pow_pos e)
  have hpos : (2 ^ 53 - 1) * 2 ^ e ≠ 0 := Nat.mul_ne_zero (by decide) (Nat.ne_of_gt (Nat.two_pow_pos e))
  have hlog : ((2 ^ 53 - 1) * 2 ^ e).log2 < 53 + e := (Nat.log2_lt hpos).mpr htop
  refine ⟨(2 ^ 53 - 1) * 2 ^ e, ⟨⟨spareBits_dvd_mul_two_pow (by decide) e, by omega⟩, ?_, by omega⟩, ?_⟩
  . obtain ⟨k, hk⟩ : ∃ k, k = 1074 := ⟨_, rfl⟩
    rw [unitsPerOne_eq hk]
    have hle : 2 ^ (53 + k) ≤ 2 ^ (52 + e) := Nat.pow_le_pow_right (by decide) (by omega)
    have hmul : 2 ^ 52 * 2 ^ e ≤ (2 ^ 53 - 1) * 2 ^ e := Nat.mul_le_mul_right _ (by decide)
    rw [Nat.pow_add, Nat.pow_add] at hle
    omega
  . intro i j
    obtain ⟨hfinite, hlt⟩ := magnitude_lt_of_lt_twoPow (k := 1022) (by decide) (by decide) (h i j)
    refine ⟨hfinite, le_of_lt_two_pow (spareBits_dvd_magnitude _) ?_⟩
    rw [← Nat.pow_add]
    have hexp : ((1022 : Int) + 1074).toNat = 53 + e := by omega
    rwa [hexp] at hlt

end Grid

namespace Sweep

variable {settings : SweepSettings} {g : Grid m (n + 1)} {h : n ≤ m} {M : Nat}

section bound

variable (hM : Step.IsCellBound M) (hg : g.Within M)

include hM hg

theorem within_upTo (hp : p ≤ n) : (upTo settings g h p).grid.Within M :=
  grid_upTo_of_step hg
    (fun c r hr _ hgrid => ((Step.effect_ofPair settings _ c r (Nat.lt_of_succ_lt hr) hr).within hM hgrid).left) hp

theorem within_before (c : Fin n) (hr : r < m) (hopen : r ≤ (upTo settings g h c).openRows - 1) :
    (before settings g h c r hr).grid.Within M :=
  grid_before_of_step c
    (fun r hr _ hgrid => ((Step.effect_ofPair settings _ c r (Nat.lt_of_succ_lt hr) hr).within hM hgrid).left)
    (within_upTo hM hg (Nat.le_of_lt c.isLt)) hr hopen

theorem isFinite_divisor_stepAt (c : Fin n) (hr : r + 1 < m) (reached : Reaches settings g h c r hr) :
    (stepAt settings g h c r hr).divisor.isFinite = true := by
  have hlt := reached.lt
  have hgrid : (before settings g h c r (Nat.lt_of_succ_lt hr)).grid.Within M :=
    within_before hM hg c (by omega) (by omega)
  exact ((Step.effect_ofPair settings _ c r (Nat.lt_of_succ_lt hr) hr).within hM hgrid).right

end bound

variable (settings h) in
theorem ended_of_isBounded (hg : g.IsBounded) :
    (run settings g h).ended = none ∨ (run settings g h).ended = some .contradiction := by
  obtain ⟨M, hM, hwithin⟩ := hg.exists_isCellBound
  exact ended_run (fun c r hr reached => isFinite_divisor_stepAt hM hwithin c hr reached)

end Sweep

end RowSweep
