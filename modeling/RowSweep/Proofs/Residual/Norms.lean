import RowSweep.Proofs.Binary64.Error
import RowSweep.Proofs.Residual
import RowSweep.Proofs.Sweep.Overflow

/-!
This module contains the norms that a residual is compared with, against the rational numbers that they are computed
for. As long as nothing overflows they are off by far less than a digit of the comparison.
-/

namespace RowSweep

open Binary64

attribute [local irreducible] unitsPerOne rangeEnd

namespace Binary64

/-!
### Values that are their own magnitude
-/

variable {x y : Binary64}

theorem IsUnsigned.zero_add (h : IsUnsigned x) : .zero + x = x := by
  obtain ⟨u, hu, rfl⟩ := h
  by_cases hzero : u = 0
  . subst hzero
    rfl
  . have hround := round_mul_self false hu (d := 1) (by decide)
    rw [Nat.mul_one] at hround
    have hadd : zero + finite false u hu = round false u 1 := by
      show Binary64.add _ _ = _
      have hpos : ¬ (u : Int) < 0 := by omega
      simp [Binary64.add, zero, signed, hzero, hpos]
    rw [hadd, hround]

theorem IsUnsigned.add_zero (h : IsUnsigned x) : x + .zero = x := by
  have hadd : x + .zero = .zero + x := by
    obtain ⟨u, hu, rfl⟩ := h
    show Binary64.add _ _ = Binary64.add _ _
    simp [Binary64.add, zero, signed]
  rw [hadd, h.zero_add]

theorem abs_mul_abs (hx : x.abs = x) (hy : y.isFinite = true) : (x * y.abs).abs = x * y.abs := by
  obtain ⟨t, v, hv, rfl⟩ := exists_of_isFinite hy
  cases x with
  | nan => rfl
  | infinite s =>
    cases s with
    | true => cases hx
    | false =>
      by_cases hzero : v = 0
      . subst hzero
        rfl
      . have hproduct : infinite false * Binary64.abs (finite t v hv) = infinite false := if_neg hzero
        rw [hproduct]
        rfl
  | finite s u hu =>
    rw [← hx]
    cases mul_unsigned (isUnsigned_abs (x := finite s u hu) rfl) (isUnsigned_abs (x := finite t v hv) rfl) with
    | inl hproduct => exact hproduct.abs_eq
    | inr hproduct =>
      rw [hproduct]
      rfl

theorem abs_max_abs (hx : x.abs = x) : (x.max y.abs).abs = x.max y.abs := by
  have hy : y.abs.abs = y.abs := by cases y <;> rfl
  unfold max
  split
  . rfl
  . cases larger_cases x y.abs with
    | inl h => rw [h, hx]
    | inr h => rw [h, hy]

theorem cases_of_abs_eq (h : x.abs = x) : x.isFinite = true ∨ x = infinite false ∨ x = nan := by
  cases x with
  | nan => exact Or.inr (Or.inr rfl)
  | infinite s =>
    cases s with
    | true => cases h
    | false => exact Or.inr (Or.inl rfl)
  | finite s u hu => exact Or.inl rfl

end Binary64

namespace SumsTo

theorem sum_nonneg {s : Multiset Binary64} (hterms : ∀ y ∈ s, IsUnsigned y) : 0 ≤ (s.map toRat).sum := by
  apply Multiset.sum_nonneg
  intro v hv
  obtain ⟨y, hy, rfl⟩ := Multiset.mem_map.mp hv
  exact (hterms y hy).toRat_nonneg

theorem estimates (h : SumsTo s x) (hterms : ∀ y ∈ s, IsUnsigned y) (hs : s.card ≤ 2 ^ 20)
    (hfinite : x.isFinite = true ∨ (s.map toRat).sum ≤ 2 ^ 1023) :
    Estimates (2 * s.card) x (s.map toRat).sum := by
  induction h with
  | none => simpa using Estimates.zero
  | single x => simpa using (Estimates.self (hterms x (Multiset.mem_singleton_self x))).mono (Nat.zero_le 2)
  | @add s x t y hx hy ihx ihy =>
    obtain ⟨hleft, hright⟩ := forall_of_forall_add hterms
    have hs_nonneg := sum_nonneg hleft
    have ht_nonneg := sum_nonneg hright
    rw [Multiset.map_add, Multiset.sum_add] at hfinite ⊢
    rw [Multiset.card_add] at hs ⊢
    have hxs := ihx hleft (by omega)
      (hfinite.imp (fun hsum => (isFinite_of_isFinite_add hsum).left) (le_trans (le_add_of_nonneg_right ht_nonneg)))
    have hyt := ihy hright (by omega)
      (hfinite.imp (fun hsum => (isFinite_of_isFinite_add hsum).right) (le_trans (le_add_of_nonneg_left hs_nonneg)))
    have hxs' := hxs.mono (l := 2 * max s.card t.card) (by omega)
    have hyt' := hyt.mono (l := 2 * max s.card t.card) (by omega)
    have hfinite : (x + y).isFinite = true :=
      hfinite.elim id fun hroom => hxs'.isFinite_add hyt' (by omega) hroom
    by_cases hzero : s = 0
    . rw [hzero, hx.eq_zero hzero, hyt.isUnsigned.zero_add]
      simpa using hyt
    . by_cases hzero' : t = 0
      . rw [hzero', hy.eq_zero hzero', hxs.isUnsigned.add_zero]
        simpa using hxs
      . have hpos := Multiset.card_pos.mpr hzero
        have hpos' := Multiset.card_pos.mpr hzero'
        exact (hxs'.add hyt' (by omega) hfinite).mono (by omega)

end SumsTo

def maxAbs (v : Fin n → ℚ) : ℚ :=
  Finset.univ.fold max 0 fun j => |v j|

theorem maxAbs_le_iff {v : Fin n → ℚ} (hc : 0 ≤ c) : maxAbs v ≤ c ↔ ∀ j, |v j| ≤ c := by
  simp [maxAbs, Finset.fold_max_le, hc]

theorem abs_le_maxAbs (v : Fin n → ℚ) (j : Fin n) : |v j| ≤ maxAbs v := by
  unfold maxAbs
  rw [Finset.le_fold_max]
  exact Or.inr ⟨j, Finset.mem_univ j, le_refl _⟩

theorem maxAbs_nonneg (v : Fin n → ℚ) : 0 ≤ maxAbs v := by
  unfold maxAbs
  rw [Finset.le_fold_max]
  exact Or.inl (le_refl 0)

theorem abs_maxAbs_sub_le {v w : Fin n → ℚ} {c : ℚ} (hc : 0 ≤ c) (hv : ∀ j, 0 ≤ v j) (hw : ∀ j, 0 ≤ w j)
    (h : ∀ j, |w j - v j| ≤ c * v j) : |maxAbs w - maxAbs v| ≤ c * maxAbs v := by
  have hnonneg := maxAbs_nonneg v
  have hupper : maxAbs w ≤ maxAbs v + c * maxAbs v := by
    rw [maxAbs_le_iff (by positivity)]
    intro j
    have hj := abs_le_maxAbs v j
    rw [abs_of_nonneg (hv j)] at hj
    have hscaled := mul_le_mul_of_nonneg_left hj hc
    obtain ⟨-, hhigh⟩ := abs_le.mp (h j)
    rw [abs_of_nonneg (hw j)]
    linarith
  have hlower : maxAbs v ≤ maxAbs w + c * maxAbs v := by
    rw [maxAbs_le_iff (by have := maxAbs_nonneg w; positivity)]
    intro j
    have hj := abs_le_maxAbs w j
    have hvj := abs_le_maxAbs v j
    rw [abs_of_nonneg (hw j)] at hj
    rw [abs_of_nonneg (hv j)] at hvj
    have hscaled := mul_le_mul_of_nonneg_left hvj hc
    obtain ⟨hlow, -⟩ := abs_le.mp (h j)
    rw [abs_of_nonneg (hv j)]
    linarith
  rw [abs_le]
  constructor <;> linarith

namespace Row

theorem toRat_peak {row : Row n} (finite : ∀ j : Fin n, row[j].isFinite = true) :
    row.peak.toRat = maxAbs fun j : Fin n => row[j].toRat := by
  have hpeak := isUnsigned_peak finite
  apply le_antisymm
  . cases exists_magnitude_eq_peak finite with
    | inl hzero =>
      rw [hpeak.toRat_eq, hzero, Nat.cast_zero, zero_div]
      exact maxAbs_nonneg _
    | inr hex =>
      obtain ⟨j, hj⟩ := hex
      rw [hpeak.toRat_eq, hj, ← abs_toRat]
      exact abs_le_maxAbs (fun j : Fin n => row[j].toRat) j
  . rw [maxAbs_le_iff hpeak.toRat_nonneg]
    intro j
    rw [hpeak.toRat_eq, abs_toRat, div_le_div_iff_of_pos_right unitsPerOne_cast_pos, Nat.cast_le]
    exact magnitude_le_peak finite j

theorem abs_peak (row : Row n) : row.peak.abs = row.peak := by
  rw [peak_eq_foldl]
  have hstart : Binary64.zero.abs = .zero := rfl
  generalize row.toList = cells
  generalize Binary64.zero = largest at hstart
  induction cells generalizing largest with
  | nil => exact hstart
  | cons x cells ih => exact ih _ (abs_max_abs hstart)

theorem estimates_absSum {magnitudes : Summation} (hadds : magnitudes.AddsUp) {row : Row n}
    (finite : ∀ j : Fin n, row[j].isFinite = true) (hn : n ≤ 2 ^ 20)
    (h : (row.absSum magnitudes).isFinite = true ∨ ∑ j : Fin n, |row[j].toRat| ≤ 2 ^ 1023) :
    Estimates (2 * n) (row.absSum magnitudes) (∑ j : Fin n, |row[j].toRat|) := by
  have habs : ∀ x ∈ row.toList, IsUnsigned x.abs ∧ x.abs.toRat = |x.toRat| := by
    intro x hx
    have hunsigned := isUnsigned_abs (forall_mem_toList (P := fun x => x.isFinite = true) |>.mpr finite x hx)
    refine ⟨hunsigned, ?_⟩
    rw [hunsigned.toRat_eq, magnitude_abs, abs_toRat]
  have hsum : (((row.toList.map Binary64.abs : List Binary64) : Multiset Binary64).map toRat).sum =
      ∑ j : Fin n, |row[j].toRat| := by
    rw [Multiset.map_coe, Multiset.sum_coe, List.map_map, Function.comp_def,
      List.map_congr_left fun x hx => (habs x hx).right, ← List.sum_ofFn]
    congr 1
    apply List.ext_getElem
    . simp
    . intro i hi hi'
      simp [getElem_fin]
  have hestimates := (hadds (row.toList.map Binary64.abs)).estimates ?_ (by simpa using hn)
  . rw [hsum, Multiset.coe_card, List.length_map, Vector.length_toList] at hestimates
    exact hestimates h
  . intro y hy
    obtain ⟨x, hx, rfl⟩ := List.mem_map.mp (Multiset.mem_coe.mp hy)
    exact (habs x hx).left

end Row

namespace Grid

def absSums (magnitudes : Summation) (g : Grid m (n + 1)) : Row m :=
  g.map fun row => row.coefficients.absSum magnitudes

def exactNorm (g : Grid m (n + 1)) : ℚ :=
  maxAbs fun i : Fin m => ∑ j : Fin n, |g[i][j.castSucc].toRat|

def exactDenominator (g : Grid m (n + 1)) (x : Row n) (epsilon : Binary64) : ℚ :=
  g.exactNorm * (maxAbs fun j : Fin n => x[j].toRat) + (maxAbs fun i : Fin m => g[i][Fin.last n].toRat) +
    epsilon.toRat

variable {g : Grid m (n + 1)} {x : Row n} {epsilon : Binary64} {magnitudes : Summation}

theorem getElem_absSums (g : Grid m (n + 1)) (i : Fin m) :
    (g.absSums magnitudes)[i] = (Row.coefficients g[i]).absSum magnitudes := by
  simp [absSums, getElem_fin]

theorem getElem_coefficients (row : Row (n + 1)) (j : Fin n) : row.coefficients[j] = row[j.castSucc] := by
  simp [Row.coefficients, getElem_fin]

theorem getElem_constants (g : Grid m (n + 1)) (i : Fin m) : g.constants[i] = g[i][Fin.last n] := by
  simp [constants, Row.constant, getElem_fin]

theorem coefficientNorm_eq_peak (hadds : magnitudes.AddsUp) (g : Grid m (n + 1)) :
    g.coefficientNorm magnitudes = (g.absSums magnitudes).peak := by
  unfold coefficientNorm absSums
  rw [Row.peak_eq_foldl, ← Vector.foldl_toList, Vector.toList_map, List.foldl_map]
  simp only [Row.abs_absSum hadds]

theorem rowSum_le_exactNorm (g : Grid m (n + 1)) (i : Fin m) : ∑ j : Fin n, |g[i][j.castSucc].toRat| ≤ g.exactNorm := by
  have hle := abs_le_maxAbs (fun i : Fin m => ∑ j : Fin n, |g[i][j.castSucc].toRat|) i
  exact le_trans (le_abs_self _) hle

theorem denominator_cases (hadds : magnitudes.AddsUp) (g : Grid m (n + 1)) (hx : ∀ j : Fin n, x[j].isFinite = true)
    (hepsilon : IsUnsigned epsilon) :
    (g.denominator magnitudes x epsilon).isFinite = true ∨ g.denominator magnitudes x epsilon = .infinite false ∨
      g.denominator magnitudes x epsilon = .nan := by
  apply cases_of_abs_eq
  unfold denominator
  rw [coefficientNorm_eq_peak hadds, ← hepsilon.abs_eq, ← g.constants.abs_peak, ← x.abs_peak]
  exact abs_add_abs (abs_add_abs (abs_mul_abs (g.absSums magnitudes).abs_peak (Row.isFinite_peak hx)))

section finite

variable (hadds : magnitudes.AddsUp)
variable (hg : ∀ (i : Fin m) (j : Fin (n + 1)), g[i][j].isFinite = true) (hn : n ≤ 2 ^ 20)

include hadds hg hn

theorem estimates_coefficientNorm (h : (g.coefficientNorm magnitudes).isFinite = true ∨ g.exactNorm ≤ 2 ^ 1023) :
    Estimates (2 * n) (g.coefficientNorm magnitudes) g.exactNorm := by
  have hrows : ∀ i : Fin m, Estimates (2 * n) (g.absSums magnitudes)[i] (∑ j : Fin n, |g[i][j.castSucc].toRat|) := by
    intro i
    have hfinite : ((Row.coefficients g[i]).absSum magnitudes).isFinite = true ∨
        ∑ j : Fin n, |g[i][j.castSucc].toRat| ≤ 2 ^ 1023 := by
      cases h with
      | inl hnorm =>
        rw [coefficientNorm_eq_peak hadds] at hnorm
        rw [← getElem_absSums]
        exact Or.inl (Row.isFinite_of_isFinite_peak hnorm i)
      | inr hnorm => exact Or.inr (le_trans (g.rowSum_le_exactNorm i) hnorm)
    have hcells : ∀ j : Fin n, (Row.coefficients g[i])[j].isFinite = true := by
      intro j
      rw [getElem_coefficients]
      exact hg i j.castSucc
    have hrow := Row.estimates_absSum hadds hcells hn
    simp only [getElem_coefficients] at hrow
    rw [getElem_absSums]
    exact hrow hfinite
  have hfinite : ∀ i : Fin m, (g.absSums magnitudes)[i].isFinite = true := fun i => (hrows i).isUnsigned.isFinite
  rw [coefficientNorm_eq_peak hadds]
  refine ⟨Row.isUnsigned_peak hfinite, ?_⟩
  rw [Row.toRat_peak hfinite]
  apply abs_maxAbs_sub_le (by positivity)
  . exact fun i => (hrows i).nonneg
  . exact fun i => (hrows i).isUnsigned.toRat_nonneg
  . exact fun i => (hrows i).close

theorem estimates_denominator (hx : ∀ j : Fin n, x[j].isFinite = true) (hepsilon : IsUnsigned epsilon)
    (hnormal : 2 ^ 52 ≤ epsilon.magnitude)
    (h : (g.denominator magnitudes x epsilon).isFinite = true ∨
      (g.exactNorm ≤ 2 ^ 1023 ∧ g.exactDenominator x epsilon ≤ 2 ^ 1023)) :
    Estimates (2 ^ 22) (g.denominator magnitudes x epsilon) (g.exactDenominator x epsilon) := by
  -- The product may be subnormal, which an epsilon in the normal range makes up for.
  have hconstants : ∀ i : Fin m, g.constants[i].isFinite = true := by
    intro i
    rw [getElem_constants]
    exact hg i _
  have hnormFinite : (g.coefficientNorm magnitudes).isFinite = true ∨ g.exactNorm ≤ 2 ^ 1023 := by
    cases h with
    | inl hfinite =>
      have hproduct := (isFinite_of_isFinite_add (isFinite_of_isFinite_add hfinite).left).left
      exact Or.inl (isFinite_of_isFinite_mul hproduct).left
    | inr hroom => exact Or.inr hroom.left
  have hnorm := estimates_coefficientNorm hadds hg hn hnormFinite
  have hexact : g.exactDenominator x epsilon =
      g.exactNorm * x.peak.toRat + g.constants.peak.toRat + epsilon.toRat := by
    unfold exactDenominator
    rw [Row.toRat_peak hx, Row.toRat_peak hconstants]
    simp only [getElem_constants]
  rw [hexact] at h ⊢
  exact estimates_mul_add_add hnorm (by omega) (Row.isUnsigned_peak hx) (Row.isUnsigned_peak hconstants) hepsilon
    hnormal (h.imp id And.right)

end finite

end Grid

end RowSweep
