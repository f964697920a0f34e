import RowSweep.Proofs.Sweep.Bounds
import RowSweep.Proofs.Multipliers.Cancel

/-!
This module contains the condition under which a step clears the entry that it is meant to clear. Only
scaled multipliers can leave something behind.
-/

namespace RowSweep

open Binary64

attribute [local irreducible] unitsPerOne rangeEnd

theorem Binary64.isZero_scale_congr {x y : Binary64} (hx : x.isFinite = true) (hy : y.isFinite = true)
    (h : x.magnitude = y.magnitude) (k : Int) : (x.scale k).isZero = (y.scale k).isZero := by
  obtain ⟨s, u, hu, rfl⟩ := exists_of_isFinite hx
  obtain ⟨t, v, hv, rfl⟩ := exists_of_isFinite hy
  rw [magnitude_finite, magnitude_finite] at h
  subst h
  show (round s _ _).isZero = (round t _ _).isZero
  unfold round
  dsimp only
  split <;> rfl

namespace Step

structure IsScaled (settings : SweepSettings) (g : Grid m (n + 1)) (c : Fin n) (r : Nat) (hr : r < m)
    (h : r + 1 < m) : Prop where
  upper : g[r][c.castSucc].isZero = false
  lower : g[r + 1][c.castSucc].isZero = false
  scaled : (multipliers settings g r h g[r][c.castSucc] g[r + 1][c.castSucc]).integral = false

def oriented (settings : SweepSettings) (g : Grid m (n + 1)) (c : Fin n) (r : Nat) (hr : r < m)
    (h : r + 1 < m) : Grid m (n + 1) :=
  if settings.pairwisePivoting && g[r + 1][c.castSucc].abs.lt g[r][c.castSucc].abs then g.swap r (r + 1) else g

/--
Whether scaled multipliers clear the entry of the upper row: what is left of the entries is noise, or it
is lost when the combined row is divided by the power of two above its peak.
-/
def Clears (settings : SweepSettings) (g : Grid m (n + 1)) (c : Fin n) (r : Nat) (hr : r < m)
    (h : r + 1 < m) : Prop :=
  let g := oriented settings g c r hr h
  let row := (Multipliers.scaling g[r][c.castSucc] g[r + 1][c.castSucc]).combine settings.zeroSnap g[r] g[r + 1]
  Multipliers.Snaps settings.zeroSnap g[r][c.castSucc] g[r + 1][c.castSucc] ∨
    ((Multipliers.remainder g[r][c.castSucc] g[r + 1][c.castSucc]).scale (-row.peak.exponent)).isZero = true

variable {settings : SweepSettings} {g : Grid m (n + 1)} {c : Fin n} {r : Nat} {hr : r < m}
variable {h : r + 1 < m}

theorem multipliers_of_scaled
    (hk : (multipliers settings g r h g[r][c.castSucc] g[r + 1][c.castSucc]).integral = false) :
    multipliers settings g r h g[r][c.castSucc] g[r + 1][c.castSucc] = .scaling g[r][c.castSucc] g[r + 1][c.castSucc] :=
  (multipliers_pairing settings g c hr h).eq_scaling hk

theorem integral?_of_whole (hk : (multipliers settings g r h g[r][c.castSucc] g[r + 1][c.castSucc]).integral = true) :
    Multipliers.integral? g[r][c.castSucc] g[r + 1][c.castSucc] =
      some (multipliers settings g r h g[r][c.castSucc] g[r + 1][c.castSucc]) :=
  (multipliers_pairing settings g c hr h).integral?_eq hk

theorem ofPair_of_isScaled (hscaled : IsScaled settings g c r hr h) :
    ∃ action, (action = .combine ∨ action = .swapCombine) ∧
      ofPair settings g c r h =
        combined settings (oriented settings g c r hr h) c r h action
          (.scaling (oriented settings g c r hr h)[r][c.castSucc]
            (oriented settings g c r hr h)[r + 1][c.castSucc]) := by
  have hk := multipliers_of_scaled hscaled.scaled
  have hintegral : (Multipliers.scaling g[r][c.castSucc] g[r + 1][c.castSucc]).integral = false := rfl
  by_cases hswap : (settings.pairwisePivoting && g[r + 1][c.castSucc].abs.lt g[r][c.castSucc].abs) = true
  . have horiented : oriented settings g c r hr h = g.swap r (r + 1) := if_pos hswap
    refine ⟨.swapCombine, Or.inr rfl, ?_⟩
    rw [horiented, Vector.getElem_swap_left, Vector.getElem_swap_right]
    unfold ofPair
    rw [Bool.and_eq_true] at hswap
    simp [hscaled.upper, hscaled.lower, hk, hintegral, hswap]
  . have horiented : oriented settings g c r hr h = g := if_neg hswap
    refine ⟨.combine, Or.inl rfl, ?_⟩
    rw [horiented]
    unfold ofPair
    simp only [hscaled.upper, hscaled.lower, hk, hintegral, Bool.not_false, Bool.and_true, hswap,
      Bool.false_eq_true, ↓reduceIte]

theorem ofPair_of_whole (hupper : g[r][c.castSucc].isZero = false) (hlower : g[r + 1][c.castSucc].isZero = false)
    (hk : (multipliers settings g r h g[r][c.castSucc] g[r + 1][c.castSucc]).integral = true) :
    ofPair settings g c r h =
      combined settings g c r h .combine (multipliers settings g r h g[r][c.castSucc] g[r + 1][c.castSucc]) := by
  unfold ofPair
  simp [hupper, hlower, hk]

variable (settings g c hr h) in
theorem oriented_cases :
    oriented settings g c r hr h = g ∨ oriented settings g c r hr h = g.swap r (r + 1) := by
  unfold oriented
  split
  . exact Or.inr rfl
  . exact Or.inl rfl

theorem IsScaled.oriented (hscaled : IsScaled settings g c r hr h) :
    (oriented settings g c r hr h)[r][c.castSucc].isZero = false ∧
      (Step.oriented settings g c r hr h)[r + 1][c.castSucc].isZero = false := by
  cases oriented_cases settings g c hr h with
  | inl heq =>
    rw [heq]
    exact ⟨hscaled.upper, hscaled.lower⟩
  | inr heq =>
    rw [heq, Vector.getElem_swap_left, Vector.getElem_swap_right]
    exact ⟨hscaled.lower, hscaled.upper⟩

variable (settings c hr h) in
theorem within_oriented (hg : g.Within M) : (oriented settings g c r hr h).Within M := by
  cases oriented_cases settings g c hr h with
  | inl heq => rwa [heq]
  | inr heq =>
    rw [heq]
    exact hg.swap hr h

section clear

variable (hM : IsCellBound M) (hg : g.Within M)

include hM hg

theorem isZero_combined_scaling (hupper : g[r][c.castSucc].isZero = false)
    (hlower : g[r + 1][c.castSucc].isZero = false) (action : Action) :
    (combined settings g c r h action
        (.scaling g[r][c.castSucc] g[r + 1][c.castSucc])).grid[r][c.castSucc].isZero = true ↔
      Multipliers.Snaps settings.zeroSnap g[r][c.castSucc] g[r + 1][c.castSucc] ∨
        ((Multipliers.remainder g[r][c.castSucc] g[r + 1][c.castSucc]).scale
          (-((Multipliers.scaling g[r][c.castSucc] g[r + 1][c.castSucc]).combine settings.zeroSnap
            g[r] g[r + 1]).peak.exponent)).isZero = true := by
  have hx : g[r][c.castSucc].isFinite = true := (hg ⟨r, hr⟩ c.castSucc).isFinite
  have hy : g[r + 1][c.castSucc].isFinite = true := (hg ⟨r + 1, h⟩ c.castSucc).isFinite
  have hpairing : Pairing settings g[r] g[r + 1] c (.scaling g[r][c.castSucc] g[r + 1][c.castSucc]) :=
    Pairing.scaled
  have hrow := hpairing.within_combine hupper (hg ⟨r, hr⟩) (hg ⟨r + 1, h⟩) hM settings.zeroSnap
  have hrem := (Multipliers.remainder_spec hx hy hupper).left
  have hcell : ((Multipliers.scaling g[r][c.castSucc] g[r + 1][c.castSucc]).combine settings.zeroSnap
      g[r] g[r + 1])[c.castSucc] = (Multipliers.scaling g[r][c.castSucc] g[r + 1][c.castSucc]).combineCell
        settings.zeroSnap g[r][c.castSucc] g[r + 1][c.castSucc] :=
    Multipliers.getElem_combine _ _ _ _ c.castSucc
  have hrescale := Row.isZero_rescale_iff (fun j => (hrow j).isFinite) c.castSucc
  rw [combined_getElem_self]
  refine hrescale.trans ?_
  simp only [hcell]
  cases Multipliers.combineCell_scaling hx hy hupper hlower settings.zeroSnap with
  | inl hsnap =>
    rw [hsnap.right]
    exact iff_of_true (Or.inl isZero_zero) (Or.inl hsnap.left)
  | inr hkeep =>
    obtain ⟨hnoise, hfinite, hmag⟩ := hkeep
    have hscale := isZero_scale_congr hfinite hrem hmag
      (-((Multipliers.scaling g[r][c.castSucc] g[r + 1][c.castSucc]).combine settings.zeroSnap
        g[r] g[r + 1]).peak.exponent)
    constructor
    . intro hzero
      cases hzero with
      | inl hzero =>
        refine Or.inr (isZero_scale ?_)
        rw [isZero_iff_magnitude hrem, ← hmag]
        exact (isZero_iff_magnitude hfinite).mp hzero
      | inr hzero => exact Or.inr (hscale.symm.trans hzero)
    . intro hclears
      cases hclears with
      | inl hsnap => exact absurd hsnap hnoise
      | inr hzero => exact Or.inr (hscale.trans hzero)

theorem isZero_combined_integral (hupper : g[r][c.castSucc].isZero = false)
    (hlower : g[r + 1][c.castSucc].isZero = false)
    (hk : (multipliers settings g r h g[r][c.castSucc] g[r + 1][c.castSucc]).integral = true) (action : Action) :
    (combined settings g c r h action
      (multipliers settings g r h g[r][c.castSucc] g[r + 1][c.castSucc])).grid[r][c.castSucc].isZero = true := by
  have hrow := (multipliers_pairing settings g c hr h).within_combine hupper (hg ⟨r, hr⟩)
    (hg ⟨r + 1, h⟩) hM .zero
  have hcell := Multipliers.isZero_combineCell_integral (integral?_of_whole hk) hupper hlower
  rw [combined_getElem_self, if_pos hk]
  apply (Row.isZero_rescale_iff (fun j => (hrow j).isFinite) c.castSucc).mpr
  rw [Multipliers.getElem_combine]
  exact Or.inl hcell

theorem isZero_upper_iff :
    (ofPair settings g c r h).grid[r][c.castSucc].isZero = true ↔
      (IsScaled settings g c r hr h → Clears settings g c r hr h) := by
  by_cases hscaled : IsScaled settings g c r hr h
  . obtain ⟨action, -, heq⟩ := ofPair_of_isScaled hscaled
    obtain ⟨hupper, hlower⟩ := hscaled.oriented
    rw [heq, isZero_combined_scaling hM (within_oriented settings c hr h hg) hupper hlower action]
    constructor
    . intro hclears _
      exact hclears
    . intro hclears
      exact hclears hscaled
  . refine iff_of_true ?_ (fun h => absurd h hscaled)
    cases hupper : g[r][c.castSucc].isZero with
    | true => simp [ofPair, hupper, plain]
    | false =>
      cases hlower : g[r + 1][c.castSucc].isZero with
      | true =>
        have hswap : ofPair settings g c r h = plain c r .swap (g.swap r (r + 1)) := by
          simp [ofPair, hupper, hlower]
        rw [hswap]
        simpa [plain] using hlower
      | false =>
        cases hk : (multipliers settings g r h g[r][c.castSucc] g[r + 1][c.castSucc]).integral with
        | true =>
          rw [ofPair_of_whole hupper hlower hk]
          exact isZero_combined_integral hM hg hupper hlower hk .combine
        | false => exact absurd ⟨hupper, hlower, hk⟩ hscaled

end clear

theorem action_ofPair_of_isScaled (hscaled : IsScaled settings g c r hr h) :
    (ofPair settings g c r h).action = .combine ∨ (ofPair settings g c r h).action = .swapCombine := by
  obtain ⟨action, haction, heq⟩ := ofPair_of_isScaled hscaled
  rw [heq]
  exact haction

theorem clears_of_isComparable (hg : g.Within M) (hscaled : IsScaled settings g c r hr h)
    (hfinite : settings.zeroSnap.isFinite = true) (hlow : (twoPow (-52)).le settings.zeroSnap = true)
    (hhigh : settings.zeroSnap.lt .one = true) (hratio : g[r][c.castSucc].IsComparable g[r + 1][c.castSucc]) :
    Clears settings g c r hr h := by
  obtain ⟨hupper, hlower⟩ := hscaled.oriented
  have hwithin := within_oriented settings c hr h hg
  have hx : (oriented settings g c r hr h)[r][c.castSucc].isFinite = true :=
    (hwithin ⟨r, hr⟩ c.castSucc).isFinite
  have hy : (oriented settings g c r hr h)[r + 1][c.castSucc].isFinite = true :=
    (hwithin ⟨r + 1, h⟩ c.castSucc).isFinite
  have horiented : (oriented settings g c r hr h)[r][c.castSucc].IsComparable
      (oriented settings g c r hr h)[r + 1][c.castSucc] := by
    cases oriented_cases settings g c hr h with
    | inl heq => rwa [heq]
    | inr heq =>
      rw [heq, Vector.getElem_swap_left, Vector.getElem_swap_right]
      exact hratio.symm
  cases Multipliers.snaps_or_isZero_remainder hx hy hupper hlow hhigh hfinite horiented.max_le with
  | inl hsnap => exact Or.inl hsnap
  | inr hzero => exact Or.inr (isZero_scale hzero)

end Step

end RowSweep
