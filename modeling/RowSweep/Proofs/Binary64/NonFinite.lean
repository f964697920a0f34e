import RowSweep.Proofs.Binary64.Units

/-!
This module contains how infinities and NaN pass through the operations: what depends on one of them is not finite
again, as long as nothing is divided by an infinity.
-/

namespace RowSweep.Binary64

theorem isFinite_of_isFinite_add {x y : Binary64} (h : (x + y).isFinite = true) :
    x.isFinite = true ∧ y.isFinite = true := by
  change (add x y).isFinite = true at h
  cases x with
  | nan => cases h
  | infinite s =>
    cases y with
    | nan => cases h
    | infinite t =>
      unfold add at h
      dsimp only at h
      split at h <;> cases h
    | finite t v hv => cases h
  | finite s u hu =>
    cases y with
    | nan => cases h
    | infinite t => cases h
    | finite t v hv => exact ⟨rfl, rfl⟩

theorem isFinite_of_isFinite_sub {x y : Binary64} (h : (x - y).isFinite = true) :
    x.isFinite = true ∧ y.isFinite = true := by
  have hadd := isFinite_of_isFinite_add (x := x) (y := -y) h
  rwa [isFinite_neg] at hadd

theorem isFinite_of_isFinite_mul {x y : Binary64} (h : (x * y).isFinite = true) :
    x.isFinite = true ∧ y.isFinite = true := by
  change (mul x y).isFinite = true at h
  cases x with
  | nan => cases h
  | infinite s =>
    cases y with
    | nan => cases h
    | infinite t => cases h
    | finite t v hv =>
      unfold mul at h
      dsimp only at h
      split at h <;> cases h
  | finite s u hu =>
    cases y with
    | nan => cases h
    | infinite t =>
      unfold mul at h
      dsimp only at h
      split at h <;> cases h
    | finite t v hv => exact ⟨rfl, rfl⟩

theorem forall_of_isFinite_foldl {f : Binary64 → α → Binary64} {P : α → Prop}
    (hf : ∀ total a, (f total a).isFinite = true → total.isFinite = true ∧ P a) {as : List α} {total : Binary64}
    (h : (as.foldl f total).isFinite = true) : total.isFinite = true ∧ ∀ a ∈ as, P a := by
  induction as generalizing total with
  | nil => exact ⟨h, nofun⟩
  | cons a as ih =>
    obtain ⟨hnext, hrest⟩ := ih h
    obtain ⟨htotal, ha⟩ := hf total a hnext
    rw [List.forall_mem_cons]
    exact ⟨htotal, ha, hrest⟩

theorem mul_eq_nan_of_isZero (hx : isZero x = true) (hy : isFinite y = false) : x * y = nan := by
  obtain ⟨s, u, hu, rfl⟩ := exists_of_isFinite (isFinite_of_isZero hx)
  have hu0 : u = 0 := by simpa [isZero] using hx
  show mul _ _ = _
  cases y with
  | nan => rfl
  | infinite t => simp [mul, hu0]
  | finite t v hv => cases hy

theorem div_eq_nan (hx : isFinite x = false) (hy : isFinite y = false) : x / y = nan := by
  cases x with
  | nan => rfl
  | infinite s =>
    cases y with
    | nan => rfl
    | infinite t => rfl
    | finite t v hv => cases hy
  | finite s u hu => cases hx

end RowSweep.Binary64
