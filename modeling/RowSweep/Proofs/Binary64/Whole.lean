import RowSweep.Proofs.Binary64.Bounds

/-!
This module contains the arithmetic of integer values: as long as a result stays in the exact range, an
operation on integers is the operation of the integers.
-/

namespace RowSweep.Binary64

attribute [local irreducible] unitsPerOne rangeEnd

theorem integer?_eq_some : integer? x = some i ↔ x.isFinite = true ∧ x.units = i * unitsPerOne := by
  cases x with
  | nan => simp [integer?, isFinite]
  | infinite s => simp [integer?, isFinite]
  | finite s u hu =>
    have hpos := unitsPerOne_pos
    simp only [integer?, isFinite, units, true_and]
    generalize unitsPerOne = one at *
    have hdiv := Nat.div_add_mod u one
    split
    next hmod =>
      rw [hmod, Nat.add_zero] at hdiv
      have hu : signed s u = signed s (u / one) * one := by
        cases s with
        | false =>
          simp only [signed, Bool.false_eq_true, ↓reduceIte]
          rw [← Int.natCast_mul, Nat.mul_comm, hdiv]
        | true =>
          simp only [signed, ↓reduceIte]
          rw [Int.neg_mul, ← Int.natCast_mul, Nat.mul_comm, hdiv]
      rw [hu, Option.some.injEq]
      constructor
      . intro heq
        rw [heq]
      . intro heq
        apply Int.eq_of_mul_eq_mul_right _ heq
        omega
    next hmod =>
      simp only [reduceCtorEq, false_iff]
      intro heq
      apply hmod
      have := congrArg Int.natAbs heq
      rw [natAbs_signed, Int.natAbs_mul, Int.natAbs_natCast] at this
      rw [this]
      exact Nat.mul_mod_left _ _

theorem isFinite_of_integer? (h : integer? x = some i) : x.isFinite = true :=
  (integer?_eq_some.mp h).left

theorem units_of_integer? (h : integer? x = some i) : x.units = i * unitsPerOne :=
  (integer?_eq_some.mp h).right

theorem magnitude_of_integer? (h : integer? x = some i) :
    x.magnitude = i.natAbs * unitsPerOne := by
  rw [magnitude, units_of_integer? h, Int.natAbs_mul, Int.natAbs_natCast]

theorem integer?_of_isZero (h : isZero x = true) : integer? x = some 0 := by
  rw [integer?_eq_some, Int.zero_mul]
  exact isZero_iff.mp h

theorem isZero_iff_of_integer? (h : integer? x = some i) : isZero x = true ↔ i = 0 := by
  have hpos := unitsPerOne_pos
  rw [isZero_iff, units_of_integer? h, Int.mul_eq_zero]
  simp only [isFinite_of_integer? h, true_and]
  omega

theorem integer?_eq_none_of_lt {x : Binary64} (h : x.magnitude < unitsPerOne) (hzero : x.isZero = false) :
    x.integer? = none := by
  cases hinteger : x.integer? with
  | none => rfl
  | some i =>
    rw [magnitude_of_integer? hinteger] at h
    have hi : i = 0 := by
      by_contra hne
      have := Nat.le_mul_of_pos_left unitsPerOne (Int.natAbs_pos.mpr hne)
      omega
    rw [(isZero_iff_of_integer? hinteger).mpr hi] at hzero
    cases hzero

theorem integer?_neg (h : integer? x = some i) : integer? (-x) = some (-i) := by
  rw [integer?_eq_some] at *
  simp [h]

theorem integer?_ofNat (h : i ≤ 2 ^ 53) : integer? (ofNat i) = some (i : Int) := by
  rw [integer?_eq_some]
  exact ofNat_spec h

theorem le_exactLimit_iff (hx : isFinite x = true) :
    le x exactLimit = true ↔ x.units ≤ (2 ^ 53 : Nat) * unitsPerOne := by
  rw [le_iff hx isFinite_exactLimit, units_exactLimit]

theorem exactInteger?_eq_some :
    exactInteger? x = some i ↔ integer? x = some i ∧ i.natAbs ≤ 2 ^ 53 := by
  unfold exactInteger?
  have hpos := unitsPerOne_pos
  constructor
  . intro h
    split at h
    next hle =>
      refine ⟨h, ?_⟩
      rw [le_exactLimit_iff (by simp [isFinite_of_integer? h]), units_abs,
        magnitude_of_integer? h] at hle
      exact Nat.le_of_mul_le_mul_right (by omega) hpos
    next => cases h
  . intro h
    have hle : x.abs.le exactLimit = true := by
      rw [le_exactLimit_iff (by simp [isFinite_of_integer? h.left]), units_abs,
        magnitude_of_integer? h.left]
      have := Nat.mul_le_mul_right unitsPerOne h.right
      omega
    rw [if_pos hle]
    exact h.left

theorem integer?_add (hx : integer? x = some i) (hy : integer? y = some j)
    (h : (i + j).natAbs ≤ 2 ^ 53) : integer? (x + y) = some (i + j) := by
  have hsum : x.units + y.units = (i + j) * unitsPerOne := by
    rw [units_of_integer? hx, units_of_integer? hy, Int.add_mul]
  have hfits := fits_mul_unitsPerOne h
  have habs : (x.units + y.units).natAbs = (i + j).natAbs * unitsPerOne := by
    rw [hsum, Int.natAbs_mul, Int.natAbs_natCast]
  have hround := roundUnits_one_of_dvd hfits.dvd
  have hspec := add_spec (isFinite_of_integer? hx) (isFinite_of_integer? hy)
    (by rw [habs, hround]; exact lt_rangeEnd_of_fits hfits)
  rw [habs, hround, ← habs, signed_lt_zero_natAbs] at hspec
  rw [integer?_eq_some, ← hsum]
  exact hspec

theorem exists_of_integer? (h : integer? x = some i) :
    ∃ s u hu, x = finite s u hu ∧ u = i.natAbs * unitsPerOne ∧ signed s u = i * unitsPerOne := by
  have hmag := magnitude_of_integer? h
  have hunits := units_of_integer? h
  obtain ⟨s, u, hu, rfl⟩ := exists_of_isFinite (isFinite_of_integer? h)
  rw [magnitude_finite] at hmag
  exact ⟨s, u, hu, rfl, hmag, hunits⟩

theorem integer?_mul (hx : integer? x = some i) (hy : integer? y = some j)
    (h : (i * j).natAbs ≤ 2 ^ 53) : integer? (x * y) = some (i * j) := by
  obtain ⟨s, u, hu, rfl, hxm, hxu⟩ := exists_of_integer? hx
  obtain ⟨t, v, hv, rfl, hym, hyu⟩ := exists_of_integer? hy
  have hprod : u * v = (i * j).natAbs * unitsPerOne * unitsPerOne := by
    rw [hxm, hym, Int.natAbs_mul]
    generalize unitsPerOne = one
    ac_rfl
  have hmul : (finite s u hu * finite t v hv : Binary64) =
      finite (s != t) ((i * j).natAbs * unitsPerOne) (fits_mul_unitsPerOne h) := by
    show round (s != t) (u * v) unitsPerOne = _
    rw [hprod, round_mul_self _ (fits_mul_unitsPerOne h) unitsPerOne_pos]
  rw [hmul, integer?_eq_some]
  refine ⟨rfl, ?_⟩
  show signed (s != t) ((i * j).natAbs * unitsPerOne) = _
  -- The sign of the product is found by multiplying the magnitudes with their signs once more.
  have hunits : signed (s != t) (u * v) = i * j * unitsPerOne * unitsPerOne := by
    rw [signed_bne_mul, hxu, hyu]
    generalize (unitsPerOne : Int) = one
    ac_rfl
  have hpos := unitsPerOne_pos
  apply Int.eq_of_mul_eq_mul_right (a := unitsPerOne) (by omega)
  rw [← hunits, hprod]
  cases hst : (s != t) <;> simp [signed]

theorem integer?_div (hx : integer? x = some (q * j)) (hy : integer? y = some j) (hj : j ≠ 0)
    (h : q.natAbs ≤ 2 ^ 53) : integer? (x / y) = some q := by
  obtain ⟨s, u, hu, rfl, hxm, hxu⟩ := exists_of_integer? hx
  obtain ⟨t, v, hv, rfl, hym, hyu⟩ := exists_of_integer? hy
  have hpos := unitsPerOne_pos
  have hv0 : v ≠ 0 := by
    rw [hym]
    exact Nat.mul_ne_zero (by omega) (by omega)
  have hprod : u * unitsPerOne = q.natAbs * unitsPerOne * v := by
    rw [hxm, hym, Int.natAbs_mul]
    generalize unitsPerOne = one
    ac_rfl
  have hdiv : (finite s u hu / finite t v hv : Binary64) =
      finite (s != t) (q.natAbs * unitsPerOne) (fits_mul_unitsPerOne h) := by
    show (if v = 0 then _ else round (s != t) (u * unitsPerOne) v) = _
    rw [if_neg hv0, hprod, round_mul_self _ (fits_mul_unitsPerOne h) (Nat.pos_of_ne_zero hv0)]
  rw [hdiv, integer?_eq_some]
  refine ⟨rfl, ?_⟩
  show signed (s != t) (q.natAbs * unitsPerOne) = _
  -- Multiplying with the divisor and its sign gives back the dividend with its own.
  have hunits : signed (s != t) (q.natAbs * unitsPerOne) * signed t v =
      signed s (q.natAbs * unitsPerOne * v) := by
    rw [← signed_bne_mul]
    cases s <;> cases t <;> rfl
  apply Int.eq_of_mul_eq_mul_right (a := signed t v) (by simpa using hv0)
  rw [hunits, ← hprod]
  have hleft : signed s (u * unitsPerOne) = signed s u * unitsPerOne := by
    cases s <;> simp [signed]
  rw [hleft, hxu, hyu]
  generalize (unitsPerOne : Int) = one
  ac_rfl

end RowSweep.Binary64
