import RowSweep.Proofs.Residual.NonFinite
import RowSweep.Proofs.Thresholds.Soundness

/-!
This module contains the bands of the relative residual as a scale: bands without a gap give a verdict on every value,
and a larger residual never gets a better one.
-/

namespace RowSweep

open Binary64 (exists_of_isFinite le_eq_false_iff le_iff_toRat_le lt_eq_false_iff lt_iff_toRat_lt)

namespace Status

def rank : Status → Nat
  | pass => 0
  | degraded => 1
  | fail => 2

instance instLE : LE Status where
  le s s' := s.rank ≤ s'.rank

theorem le_def {s s' : Status} : s ≤ s' ↔ s.rank ≤ s'.rank :=
  Iff.rfl

end Status

namespace ResidualBands

def verdict (bands : ResidualBands) (q : ℚ) : Status :=
  if q ≤ bands.passMax.toRat then .pass
  else if q ≤ bands.degradedMax.toRat then .degraded
  else .fail

variable {bands : ResidualBands} {q q' : ℚ} {x : Binary64}

theorem verdict_mono (h : q ≤ q') : bands.verdict q ≤ bands.verdict q' := by
  rw [Status.le_def]
  unfold verdict
  split
  next => exact Nat.zero_le _
  next hpass =>
    rw [if_neg (fun hle => hpass (le_trans h hle))]
    split
    next =>
      split
      next => exact Nat.le_refl _
      next => exact Nat.le_succ 1
    next hdegraded =>
      rw [if_neg (fun hle => hdegraded (le_trans h hle))]

theorem status?_eq_none_iff (hpass : bands.passMax.isFinite = true) (hdegraded : bands.degradedMax.isFinite = true)
    (hfail : bands.failMinExclusive.isFinite = true) :
    bands.status? x = none ↔ x.isFinite = true ∧ bands.passMax.toRat < x.toRat ∧
      bands.degradedMax.toRat < x.toRat ∧ x.toRat ≤ bands.failMinExclusive.toRat := by
  cases hx : x.isFinite with
  | false => simp [bands.status?_of_not_isFinite hx]
  | true =>
    rw [← le_eq_false_iff hx hpass, ← le_eq_false_iff hx hdegraded, ← lt_eq_false_iff hfail hx]
    unfold status?
    rw [hx]
    cases x.le bands.passMax <;> cases x.le bands.degradedMax <;> cases bands.failMinExclusive.lt x <;> simp

theorem IsSound.status?_ne_none (h : bands.IsSound) (x : Binary64) : bands.status? x ≠ none := by
  intro hnone
  rw [status?_eq_none_iff h.passMax_isFinite h.degradedMax_isFinite h.failMinExclusive_isFinite] at hnone
  obtain ⟨-, -, habove, hbelow⟩ := hnone
  rw [← h.degradedMax_eq] at hbelow
  exact absurd hbelow (not_le.mpr habove)

theorem IsSound.status?_eq (h : bands.IsSound) (hx : x.isFinite = true) :
    bands.status? x = some (bands.verdict x.toRat) := by
  unfold status? verdict
  rw [hx, Bool.not_true, if_neg Bool.false_ne_true]
  simp only [le_iff_toRat_le hx h.passMax_isFinite, le_iff_toRat_le hx h.degradedMax_isFinite]
  split
  next => rfl
  next =>
    split
    next => rfl
    next hdegraded =>
      rw [not_le, h.degradedMax_eq, ← lt_iff_toRat_lt h.failMinExclusive_isFinite hx] at hdegraded
      rw [if_pos hdegraded]

end ResidualBands

theorem status_of_document (document : Document) (artifact : String) (t : Thresholds)
    (h : Thresholds.ofDocument document artifact = .ok t) :
    (∀ x, ∃ status, t.residual.status? x = some status) ∧
    (∀ x x' status status', x.isFinite = true → x'.isFinite = true → x.le x' = true →
      t.residual.status? x = some status → t.residual.status? x' = some status' → status ≤ status') ∧
    ∀ x, x.isFinite = false → t.residual.status? x = some .fail := by
  have hsound := (Thresholds.ofDocument_eq_ok_iff.mp h).right.left.residual
  refine ⟨?_, ?_, ?_⟩
  . intro x
    rw [← Option.ne_none_iff_exists']
    exact hsound.status?_ne_none x
  . intro x x' status status' hx hx' hle hstatus hstatus'
    rw [hsound.status?_eq hx] at hstatus
    rw [hsound.status?_eq hx'] at hstatus'
    rw [le_iff_toRat_le hx hx'] at hle
    cases hstatus
    cases hstatus'
    exact ResidualBands.verdict_mono hle
  . intro x
    exact t.residual.status?_of_not_isFinite

def negativeBands : Thresholds :=
  { Thresholds.default with residual := ⟨.zero, -.one, -.one, -.one⟩ }

theorem status_of_negativeBands :
    Thresholds.ofDocument negativeBands.settings "thresholds_v1.yaml" = .ok negativeBands ∧
      (∃ status, negativeBands.residual.status? (.infinite true) = some status) ∧
      (-Binary64.ofNat 2).le .zero = true ∧ negativeBands.residual.status? (-.ofNat 2) = some .pass ∧
      negativeBands.residual.status? .zero = some .fail ∧ Status.pass ≤ Status.fail ∧
      negativeBands.residual.status? .nan = some .fail := by
  have hread : Thresholds.ofDocument negativeBands.settings "thresholds_v1.yaml" = .ok negativeBands := by
    decide +kernel
  have hle : (-Binary64.ofNat 2).le .zero = true := by decide +kernel
  have hpass : negativeBands.residual.status? (-.ofNat 2) = some .pass := by decide +kernel
  have hfail : negativeBands.residual.status? .zero = some .fail := by decide +kernel
  obtain ⟨htotal, hmono, hnonFinite⟩ := status_of_document _ _ negativeBands hread
  have hworse := hmono _ _ _ _ (by decide +kernel) (by decide +kernel) hle hpass hfail
  exact ⟨hread, htotal (.infinite true), hle, hpass, hfail, hworse, hnonFinite .nan rfl⟩

end RowSweep
