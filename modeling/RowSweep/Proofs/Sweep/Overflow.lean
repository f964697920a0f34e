import RowSweep.Proofs.Sweep.Bounds
import RowSweep.Proofs.Sweep.Merger

/-!
This module contains the one way in which a sweep can break down: the power of two above the peak of a combined row
is no binary64 value. A row whose peak overflowed itself is left as it is and does no harm.
-/

namespace RowSweep

open Binary64

attribute [local irreducible] unitsPerOne rangeEnd

namespace Binary64

def IsBeyond (x : Binary64) : Prop :=
  x = nan ∨ x = infinite false

theorem IsBeyond.isFinite (h : IsBeyond x) : x.isFinite = false := by
  cases h with
  | inl h => rw [h]; rfl
  | inr h => rw [h]; rfl

theorem isBeyond_abs (h : isFinite x = false) : IsBeyond x.abs := by
  cases x with
  | nan => exact Or.inl rfl
  | infinite s => exact Or.inr rfl
  | finite s u hu => cases h

theorem IsBeyond.max_abs (h : IsBeyond x) (y : Binary64) : IsBeyond (x.max y.abs) := by
  cases h with
  | inl h =>
    rw [h]
    exact Or.inl rfl
  | inr h =>
    rw [h]
    cases y with
    | nan => exact Or.inl rfl
    | infinite s => exact Or.inr rfl
    | finite s u hu => exact Or.inr rfl

theorem isBeyond_max_of_isFinite (hx : isFinite x = true) (hy : IsBeyond y) : IsBeyond (x.max y) := by
  obtain ⟨s, u, hu, rfl⟩ := exists_of_isFinite hx
  cases hy with
  | inl hy =>
    rw [hy]
    exact Or.inl rfl
  | inr hy =>
    rw [hy]
    exact Or.inr rfl

end Binary64

namespace Row

def IsAtTop (row : Row n) : Prop :=
  row.peak.isFinite = true ∧ (twoPow 1023).le row.peak = true

instance (row : Row n) : Decidable row.IsAtTop :=
  inferInstanceAs (Decidable (_ ∧ _))

theorem isFinite_of_isFinite_peak {row : Row n} (h : row.peak.isFinite = true) (j : Fin n) :
    row[j].isFinite = true := by
  -- A running maximum never comes back from beyond the range.
  suffices hcells : ∀ x ∈ row.toList, x.isFinite = true from
    forall_mem_toList (P := fun x => x.isFinite = true) |>.mp hcells j
  have hbeyond : ∀ (xs : List Binary64) (a : Binary64), IsBeyond a →
      IsBeyond (xs.foldl (fun largest v => largest.max v.abs) a) := by
    intro xs
    induction xs with
    | nil => exact fun a ha => ha
    | cons x xs ih => exact fun a ha => ih _ (ha.max_abs x)
  rw [peak_eq_foldl] at h
  have hstart : Binary64.zero.isFinite = true := rfl
  generalize row.toList = cells at h
  generalize Binary64.zero = largest at h hstart
  induction cells generalizing largest with
  | nil => simp
  | cons x cells ih =>
    rw [List.foldl_cons] at h
    cases hx : x.isFinite with
    | false =>
      have hmax := isBeyond_max_of_isFinite hstart (isBeyond_abs hx)
      rw [(hbeyond cells _ hmax).isFinite] at h
      cases h
    | true =>
      have hmax : (largest.max x.abs).isFinite = true := by
        rw [max_eq_larger hstart (by rwa [isFinite_abs])]
        exact isFinite_larger hstart (by rwa [isFinite_abs])
      rw [List.forall_mem_cons]
      exact ⟨hx, ih _ h hmax⟩

theorem isAtTop_iff {row : Row n} (finite : ∀ j : Fin n, row[j].isFinite = true) :
    row.IsAtTop ↔ 2097 ≤ row.peak.magnitude.log2 := by
  have hpeak := isFinite_peak finite
  obtain ⟨htop, hmagnitude⟩ := twoPow_spec (k := 1023) (by decide) (by decide)
  obtain ⟨e, he⟩ : ∃ e, e = ((1023 : Int) + 1074).toNat := ⟨_, rfl⟩
  rw [← he] at hmagnitude
  have he' : 2097 = e := by omega
  unfold IsAtTop
  rw [le_iff htop hpeak, (isUnsigned_twoPow (k := 1023) (by decide) (by decide)).units_eq, units_peak finite,
    Int.ofNat_le, hmagnitude, he']
  simp only [hpeak, true_and]
  by_cases hzero : row.peak.magnitude = 0
  . have hpos := Nat.two_pow_pos e
    simp only [hzero, Nat.log2_zero]
    omega
  . exact (Nat.le_log2 hzero).symm

theorem isFinite_divisor_iff (row : Row n) : row.rescale.2.isFinite = true ↔ ¬ row.IsAtTop := by
  cases hpeak : row.peak.isFinite with
  | false =>
    have hrescale : row.rescale.2 = .one := by
      unfold rescale
      simp [hpeak]
    rw [hrescale]
    refine iff_of_true isFinite_one fun htop => ?_
    rw [htop.left] at hpeak
    cases hpeak
  | true =>
    have finite := isFinite_of_isFinite_peak hpeak
    rw [isAtTop_iff finite, Nat.not_le]
    cases rescale_cases finite with
    | inl h =>
      obtain ⟨hle, xs, hxs⟩ := h
      obtain ⟨d, -, hd, hdivisor, -⟩ := rescale_integers finite hle hxs
      rw [hdivisor]
      refine iff_of_true (ofNat_spec hd).left ?_
      obtain ⟨e, he⟩ : ∃ e, e = 1074 := ⟨_, rfl⟩
      rw [unitsPerOne_eq he, ← Nat.pow_add] at hle
      have hlog := log2_mono hle
      rw [Nat.log2_two_pow] at hlog
      omega
    | inr h =>
      have hexponent := exponent_eq hpeak
      rw [h]
      by_cases hlog : row.peak.magnitude.log2 < 2097
      . exact iff_of_true (twoPow_spec (by omega) (by omega)).left hlog
      . have hrange := (log2_lt_iff _).mpr (magnitude_lt_rangeEnd row.peak)
        have htop : row.peak.exponent = 1024 := by omega
        have hpow : (twoPow 1024).isFinite = false := by decide +kernel
        rw [htop, hpow]
        exact iff_of_false Bool.false_ne_true hlog

end Row

namespace Step

def merged? (settings : SweepSettings) (g : Grid m (n + 1)) (c : Fin n) (r : Nat) (h : r + 1 < m) :
    Option (Row (n + 1)) :=
  (merger? settings g c r h).map (·.row)

variable {settings : SweepSettings} {g : Grid m (n + 1)} {c : Fin n} {r : Nat} {h : r + 1 < m}

theorem divisor_ofPair (hr : r < m) :
    (ofPair settings g c r h).divisor = ((merged? settings g c r h).map (·.rescale.2)).getD .one := by
  unfold merged?
  cases hmerger : merger? settings g c r h with
  | none =>
    rw [ofPair_of_merger?_eq_none hr hmerger]
    split <;> rfl
  | some merger => exact (applies_ofPair hr hmerger).divisor

theorem isFinite_divisor_ofPair_iff (hr : r < m) :
    (ofPair settings g c r h).divisor.isFinite = true ↔
      ∀ row, merged? settings g c r h = some row → ¬ row.IsAtTop := by
  rw [divisor_ofPair hr]
  cases merged? settings g c r h with
  | none => simp [isFinite_one]
  | some row => simp [Row.isFinite_divisor_iff]

theorem isZero_of_merged? (hr : r < m) {row : Row (n + 1)} (hrow : merged? settings g c r h = some row) :
    g[r][c.castSucc].isZero = false ∧ g[r + 1][c.castSucc].isZero = false := by
  obtain ⟨merger, hmerger, -⟩ := Option.map_eq_some_iff.mp hrow
  have hmerges := merges_of_merger? hr hmerger
  have hupper := hmerges.upperEntry
  have hlower := hmerges.lowerEntry
  cases hmerges.rows with
  | inl hrows =>
    rw [hrows.right.left] at hupper
    rw [hrows.right.right] at hlower
    exact ⟨hupper, hlower⟩
  | inr hrows =>
    rw [hrows.right.left] at hupper
    rw [hrows.right.right] at hlower
    exact ⟨hlower, hupper⟩

end Step

namespace Sweep

variable {settings : SweepSettings} {g : Grid m (n + 1)} {h : n ≤ m}

def mergedAt? (settings : SweepSettings) (g : Grid m (n + 1)) (h : n ≤ m) (c : Fin n) (r : Nat)
    (hr : r + 1 < m) : Option (Row (n + 1)) :=
  Step.merged? settings (before settings g h c r (Nat.lt_of_succ_lt hr)).grid c r hr

variable (settings g h) in
theorem ended_ne_divisorOverflow_iff :
    (run settings g h).ended ≠ some .divisorOverflow ↔ ∀ (c : Fin n) (r : Nat) (hr : r + 1 < m),
      Reaches settings g h c r hr → ∀ row, mergedAt? settings g h c r hr = some row → ¬ row.IsAtTop := by
  rw [ne_eq, ended_eq_divisorOverflow_iff]
  simp only [not_exists, not_and, Bool.not_eq_false]
  refine forall_congr' fun c => forall_congr' fun r => forall_congr' fun hr => forall_congr' fun _ => ?_
  exact Step.isFinite_divisor_ofPair_iff (Nat.lt_of_succ_lt hr)

end Sweep

end RowSweep
