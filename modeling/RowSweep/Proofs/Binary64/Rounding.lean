import Mathlib
import RowSweep.Binary64.Round

/-!
This module contains the theory of rounding to the binary64 grid: values on the grid are kept, rounding is
monotone, and its error is at most half a step.
-/

namespace RowSweep.Binary64

theorem nearest_mul_self (hd : 0 < d) (q : Nat) : nearest (q * d) d = q := by
  unfold nearest
  simp [Nat.mul_div_cancel _ hd, hd]

theorem div_le_nearest (n d : Nat) : n / d ≤ nearest n d := by
  unfold nearest
  dsimp only
  split <;> omega

theorem nearest_le_of_le_mul (hd : 0 < d) (h : n ≤ q * d) : nearest n d ≤ q := by
  have hq : n / d ≤ q := Nat.div_le_of_le_mul (by rwa [Nat.mul_comm])
  cases Nat.eq_or_lt_of_le hq with
  | inl heq =>
    have hn : n = q * d := by
      apply Nat.le_antisymm h
      rw [← heq]
      apply Nat.div_mul_le_self
    rw [hn, nearest_mul_self hd]
  | inr hlt =>
    have := nearest_le n d
    omega

theorem nearest_mono (h : n ≤ n') : nearest n d ≤ nearest n' d := by
  have hq : n / d ≤ n' / d := Nat.div_le_div_right h
  cases Nat.eq_or_lt_of_le hq with
  | inl heq =>
    have hn := Nat.div_add_mod n d
    have hn' := Nat.div_add_mod n' d
    have hmod : n % d ≤ n' % d := by
      rw [← heq] at hn'
      omega
    unfold nearest
    rw [← heq]
    dsimp only
    split <;> split <;> omega
  | inr hlt =>
    have := nearest_le n d
    have := div_le_nearest n' d
    omega

theorem nearest_mul_mul (hc : 0 < c) (n d : Nat) : nearest (n * c) (d * c) = nearest n d := by
  unfold nearest
  rw [Nat.mul_div_mul_right _ _ hc, Nat.mul_mod_mul_right]
  have h : 2 * (n % d * c) = 2 * (n % d) * c := by rw [Nat.mul_assoc]
  simp only [h, Nat.mul_lt_mul_right hc, Nat.mul_right_cancel_iff hc]

theorem nearest_error (hd : 0 < d) (n : Nat) :
    2 * n ≤ 2 * (nearest n d * d) + d ∧ 2 * (nearest n d * d) ≤ 2 * n + d := by
  have hn := Nat.div_add_mod n d
  have hmod := Nat.mod_lt n hd
  rw [Nat.mul_comm] at hn
  unfold nearest
  dsimp only
  split
  . omega
  . rw [Nat.add_mul, Nat.one_mul]
    omega

theorem nearest_eq_of_error_lt (hlow : 2 * n < 2 * (q * d) + d) (hhigh : 2 * (q * d) < 2 * n + d) :
    nearest n d = q := by
  have hd : 0 < d := by
    apply Nat.pos_of_ne_zero
    intro hd
    subst hd
    omega
  have herr := nearest_error hd n
  have hle : nearest n d ≤ q := by
    apply Nat.le_of_not_lt
    intro hlt
    have := Nat.mul_le_mul_right d hlt
    rw [Nat.succ_mul] at this
    omega
  have hge : q ≤ nearest n d := by
    apply Nat.le_of_not_lt
    intro hlt
    have := Nat.mul_le_mul_right d hlt
    rw [Nat.succ_mul] at this
    omega
  omega

/-!
### The grid
-/

theorem log2_mono {a b : Nat} (h : a ≤ b) : a.log2 ≤ b.log2 := by
  by_cases ha : a = 0
  . simp [ha]
  . rw [Nat.le_log2 (by omega)]
    exact Nat.le_trans (Nat.log2_self_le ha) h

theorem spareBits_mono (h : a ≤ b) : spareBits a ≤ spareBits b := by
  unfold spareBits
  have := log2_mono h
  omega

theorem spareBits_eq_zero (h : u < 2 ^ 53) : spareBits u = 0 := by
  unfold spareBits
  by_cases hu : u = 0
  . simp [hu]
  . have := (Nat.log2_lt hu).mpr h
    omega

theorem two_pow_le_of_spareBits_pos (h : 0 < spareBits u) : 2 ^ 52 * 2 ^ spareBits u ≤ u := by
  have hu : u ≠ 0 := by
    intro hu
    simp [hu, spareBits] at h
  have hlog : 52 + spareBits u = u.log2 := by
    unfold spareBits at *
    omega
  rw [← Nat.pow_add, hlog]
  exact Nat.log2_self_le hu

theorem lt_two_pow_spareBits (u : Nat) : u < 2 ^ 53 * 2 ^ spareBits u := by
  rw [← Nat.pow_add]
  apply Nat.lt_of_lt_of_le (Nat.lt_log2_self (n := u))
  apply Nat.pow_le_pow_right (by decide)
  unfold spareBits
  omega

theorem spareBits_le (h : u < 2 ^ 53 * 2 ^ k) : spareBits u ≤ k := by
  by_cases hu : u = 0
  . simp [hu, spareBits]
  . rw [← Nat.pow_add, ← Nat.log2_lt hu] at h
    unfold spareBits
    omega

theorem le_spareBits (h : 2 ^ 52 * 2 ^ k ≤ u) : k ≤ spareBits u := by
  rw [← Nat.pow_add] at h
  have hu : u ≠ 0 := by
    have := Nat.two_pow_pos (52 + k)
    omega
  rw [← Nat.le_log2 hu] at h
  unfold spareBits
  omega

theorem le_of_lt_two_pow (hu : 2 ^ spareBits u ∣ u) (h : u < 2 ^ 53 * 2 ^ k) :
    u ≤ (2 ^ 53 - 1) * 2 ^ k := by
  -- Of 53 digits at most `k` places up there are none between the largest magnitude and the power of two
  -- above.
  by_cases hk : k ≤ spareBits u
  . obtain ⟨q, rfl⟩ := Nat.dvd_trans (Nat.pow_dvd_pow 2 hk) hu
    rw [Nat.mul_comm] at h ⊢
    have hq := Nat.lt_of_mul_lt_mul_right h
    exact Nat.mul_le_mul_right _ (by omega)
  . have hlt := lt_two_pow_spareBits u
    have hpow : 2 ^ 53 * 2 ^ spareBits u ≤ 2 ^ 52 * 2 ^ k := by
      rw [← Nat.pow_add, ← Nat.pow_add]
      exact Nat.pow_le_pow_right (by decide) (by omega)
    have hle : 2 ^ 52 * 2 ^ k ≤ (2 ^ 53 - 1) * 2 ^ k := Nat.mul_le_mul_right _ (by decide)
    omega

theorem spareBits_dvd_two_pow (k : Nat) : 2 ^ spareBits (2 ^ k) ∣ 2 ^ k := by
  simpa using spareBits_dvd_mul_two_pow (m := 1) (by decide) k

theorem spareBits_dvd_two_mul (h : 2 ^ spareBits u ∣ u) : 2 ^ spareBits (2 * u) ∣ 2 * u := by
  have hle : u / 2 ^ spareBits u ≤ 2 ^ 53 := by
    apply Nat.div_le_of_le_mul
    rw [Nat.mul_comm]
    exact Nat.le_of_lt (lt_two_pow_spareBits u)
  have hu : 2 * u = u / 2 ^ spareBits u * 2 ^ (spareBits u + 1) := by
    rw [Nat.pow_succ, ← Nat.mul_assoc, Nat.div_mul_cancel h, Nat.mul_comm]
  rw [hu]
  exact spareBits_dvd_mul_two_pow hle _

/-!
### Rounding to the grid
-/

theorem roundUnits_mul_mul (hc : 0 < c) (n d : Nat) :
    roundUnits (n * c) (d * c) = roundUnits n d := by
  unfold roundUnits
  rw [Nat.mul_div_mul_right _ _ hc]
  dsimp only
  rw [Nat.mul_right_comm, nearest_mul_mul hc]

theorem roundUnits_congr (hd : 0 < d) (hd' : 0 < d') (h : n * d' = n' * d) : roundUnits n d = roundUnits n' d' := by
  rw [← roundUnits_mul_mul hd', h, Nat.mul_comm d, roundUnits_mul_mul hd]

theorem roundUnits_zero (d : Nat) : roundUnits 0 d = 0 := by
  simp [roundUnits, nearest, spareBits]
  omega

theorem roundUnits_le (hd : 0 < d) (hg : 2 ^ spareBits g ∣ g) (h : n ≤ g * d) :
    roundUnits n d ≤ g := by
  have hq : n / d ≤ g := Nat.div_le_of_le_mul (by rwa [Nat.mul_comm])
  have hdvd : 2 ^ spareBits (n / d) ∣ g :=
    Nat.dvd_trans (Nat.pow_dvd_pow 2 (spareBits_mono hq)) hg
  unfold roundUnits
  dsimp only
  generalize 2 ^ spareBits (n / d) = step at hdvd
  obtain ⟨k, rfl⟩ := hdvd
  rw [Nat.mul_comm]
  apply Nat.mul_le_mul_left
  by_cases hstep : step = 0
  . subst hstep
    simp at h
    simp [h, nearest]
  . apply nearest_le_of_le_mul
    . exact Nat.mul_pos hd (Nat.pos_of_ne_zero hstep)
    . calc
        n ≤ step * k * d := h
        _ = k * (d * step) := by ac_rfl

theorem le_roundUnits (hd : 0 < d) (hg : 2 ^ spareBits g ∣ g) (h : g * d ≤ n) :
    g ≤ roundUnits n d := by
  have hq : g ≤ n / d := (Nat.le_div_iff_mul_le hd).mpr h
  have hfloor := div_le_nearest n (d * 2 ^ spareBits (n / d))
  unfold roundUnits
  dsimp only
  rw [← Nat.div_div_eq_div_mul] at hfloor
  apply Nat.le_trans _ (Nat.mul_le_mul_right _ hfloor)
  cases Nat.eq_or_lt_of_le (spareBits_mono hq) with
  | inl heq =>
    rw [← heq]
    obtain ⟨k, hk⟩ := hg
    rw [Nat.mul_comm]
    conv =>
      lhs
      rw [hk]
    apply Nat.mul_le_mul_left
    rw [Nat.le_div_iff_mul_le (Nat.two_pow_pos _), Nat.mul_comm, ← hk]
    exact hq
  | inr hlt =>
    -- The quotient lies in a higher binade, so its own power of two is above `g`.
    have hpow : 2 ^ 52 ≤ n / d / 2 ^ spareBits (n / d) := by
      rw [Nat.le_div_iff_mul_le (Nat.two_pow_pos _)]
      exact two_pow_le_of_spareBits_pos (by omega)
    calc
      g ≤ 2 ^ 53 * 2 ^ spareBits g := Nat.le_of_lt (lt_two_pow_spareBits g)
      _ = 2 ^ 52 * 2 ^ (spareBits g + 1) := by rw [Nat.pow_succ 2 (spareBits g)]; omega
      _ ≤ 2 ^ 52 * 2 ^ spareBits (n / d) :=
        Nat.mul_le_mul_left _ (Nat.pow_le_pow_right (by decide) hlt)
      _ ≤ n / d / 2 ^ spareBits (n / d) * 2 ^ spareBits (n / d) := Nat.mul_le_mul_right _ hpow

theorem roundUnits_of_dvd (hd : 0 < d) (hg : 2 ^ spareBits g ∣ g) : roundUnits (g * d) d = g :=
  Nat.le_antisymm (roundUnits_le hd hg (Nat.le_refl _)) (le_roundUnits hd hg (Nat.le_refl _))

theorem roundUnits_one_of_dvd (hg : 2 ^ spareBits g ∣ g) : roundUnits g 1 = g := by
  simpa using roundUnits_of_dvd (d := 1) (by decide) hg

theorem roundUnits_mono (hd : 0 < d) (h : n ≤ n') : roundUnits n d ≤ roundUnits n' d := by
  have hq : n / d ≤ n' / d := Nat.div_le_div_right h
  cases Nat.eq_or_lt_of_le (spareBits_mono hq) with
  | inl heq =>
    unfold roundUnits
    rw [heq]
    apply Nat.mul_le_mul_right
    exact nearest_mono h
  | inr hlt =>
    -- The power of two that starts the binade of the larger quotient lies between the two.
    have hpow := two_pow_le_of_spareBits_pos (u := n' / d) (by omega)
    rw [← Nat.pow_add] at hpow
    have hbetween : n ≤ 2 ^ (52 + spareBits (n' / d)) * d := by
      have hn : n / d < 2 ^ (52 + spareBits (n' / d)) := by
        apply Nat.lt_of_lt_of_le (lt_two_pow_spareBits _)
        rw [← Nat.pow_add]
        exact Nat.pow_le_pow_right (by decide) (by omega)
      exact Nat.le_of_lt ((Nat.div_lt_iff_lt_mul hd).mp hn)
    apply Nat.le_trans (roundUnits_le hd (spareBits_dvd_two_pow _) hbetween)
    apply le_roundUnits hd (spareBits_dvd_two_pow _)
    exact (Nat.le_div_iff_mul_le hd).mp hpow

theorem roundUnits_error (hd : 0 < d) (h : 2 ^ 52 * d ≤ n) :
    2 ^ 53 * n ≤ 2 ^ 53 * (roundUnits n d * d) + n ∧
      2 ^ 53 * (roundUnits n d * d) ≤ 2 ^ 53 * n + n := by
  have hfloor : 2 ^ 52 * 2 ^ spareBits (n / d) ≤ n / d := by
    by_cases hs : spareBits (n / d) = 0
    . rw [hs]
      simpa using (Nat.le_div_iff_mul_le hd).mpr h
    . exact two_pow_le_of_spareBits_pos (by omega)
  have hstep : 2 ^ 52 * (d * 2 ^ spareBits (n / d)) ≤ n := by
    calc
      2 ^ 52 * (d * 2 ^ spareBits (n / d)) = 2 ^ 52 * 2 ^ spareBits (n / d) * d := by ac_rfl
      _ ≤ n := (Nat.le_div_iff_mul_le hd).mp hfloor
  have herr := nearest_error (Nat.mul_pos hd (Nat.two_pow_pos (spareBits (n / d)))) n
  have hround : roundUnits n d * d =
      nearest n (d * 2 ^ spareBits (n / d)) * (d * 2 ^ spareBits (n / d)) := by
    unfold roundUnits
    dsimp only
    ac_rfl
  rw [hround]
  omega

theorem roundUnits_mul_roundUnits (hd : 0 < d) (hw : 0 < w) (h : 2 ^ 52 * d ≤ n * w)
    (hn : 2 ^ spareBits n ∣ n) :
    roundUnits (d * roundUnits (n * w) d) w = n ∨
      (2 ^ 52 * 2 ^ spareBits n ≤ n ∧
        roundUnits (d * roundUnits (n * w) d) w ≤ n + 2 ^ spareBits n ∧
        n ≤ roundUnits (d * roundUnits (n * w) d) w + 2 ^ spareBits n) := by
  obtain ⟨hlow, hhigh⟩ := roundUnits_error hd h
  rw [Nat.mul_comm _ d] at hlow hhigh
  generalize d * roundUnits (n * w) d = x at hlow hhigh
  by_cases hsmall : n < 2 ^ 52
  . have hnw : n * w + w ≤ 2 ^ 52 * w := by
      rw [← Nat.succ_mul]
      exact Nat.mul_le_mul_right _ hsmall
    have hfloor : x / w < 2 ^ 53 := by
      rw [Nat.div_lt_iff_lt_mul hw]
      omega
    refine Or.inl ?_
    unfold roundUnits
    rw [spareBits_eq_zero hfloor]
    simp only [Nat.pow_zero, Nat.mul_one]
    apply nearest_eq_of_error_lt <;> omega
  . have hstep : 2 ^ 52 * 2 ^ spareBits n ≤ n := by
      by_cases hspare : spareBits n = 0
      . rw [hspare]
        omega
      . exact two_pow_le_of_spareBits_pos (by omega)
    have hdigits := lt_two_pow_spareBits n
    have hnw : n * w ≤ 2 ^ 53 * (2 ^ spareBits n * w) := by
      rw [← Nat.mul_assoc]
      exact Nat.mul_le_mul_right _ (Nat.le_of_lt hdigits)
    refine Or.inr ⟨hstep, ?_⟩
    obtain ⟨q, hq⟩ := hn
    have hqlow : 1 ≤ q := by
      apply Nat.pos_of_ne_zero
      intro hzero
      rw [hzero] at hq
      omega
    have hqhigh : q < 2 ^ 53 := by
      apply Nat.lt_of_mul_lt_mul_right (a := 2 ^ spareBits n)
      rwa [Nat.mul_comm q, ← hq]
    generalize spareBits n = s at *
    have habove : (q + 1) * 2 ^ s = n + 2 ^ s := by
      rw [hq, Nat.succ_mul, Nat.mul_comm q]
    have hbelow : (q - 1) * 2 ^ s + 2 ^ s = n := by
      rw [← Nat.succ_mul, hq, Nat.mul_comm, Nat.succ_eq_add_one, Nat.sub_add_cancel hqlow]
    constructor
    . rw [← habove]
      apply roundUnits_le hw (spareBits_dvd_mul_two_pow (by omega) s)
      rw [habove, Nat.add_mul]
      omega
    . rw [← hbelow]
      apply Nat.add_le_add_right
      apply le_roundUnits hw (spareBits_dvd_mul_two_pow (by omega) s)
      rw [← hbelow, Nat.add_mul] at hlow
      rw [← hbelow, Nat.add_mul] at hnw
      omega

theorem roundUnits_eq_of_dvd (hdvd : 2 ^ spareBits (n / d) ∣ u)
    (hlow : 2 * n < 2 * (u * d) + d * 2 ^ spareBits (n / d))
    (hhigh : 2 * (u * d) < 2 * n + d * 2 ^ spareBits (n / d)) : roundUnits n d = u := by
  obtain ⟨q, hq⟩ := hdvd
  unfold roundUnits
  dsimp only
  generalize 2 ^ spareBits (n / d) = step at *
  have hud : u * d = q * (d * step) := by
    rw [hq]
    ac_rfl
  rw [hud] at hlow hhigh
  rw [nearest_eq_of_error_lt hlow hhigh, hq, Nat.mul_comm]

theorem spareBits_div (hd : 0 < d) (hg : 2 ^ spareBits u ∣ u)
    (hlow : 4 * n < 4 * (u * d) + d * 2 ^ spareBits u) (hhigh : 4 * (u * d) < 4 * n + d * 2 ^ spareBits u) :
    spareBits (n / d) = spareBits u ∨ spareBits (n / d) + 1 = spareBits u := by
  -- The grid changes below a power of two, where the steps are half as long.
  have hdigits := lt_two_pow_spareBits u
  have hstep : 0 < spareBits u → 2 ^ 52 * 2 ^ spareBits u ≤ u := two_pow_le_of_spareBits_pos
  generalize spareBits u = s at *
  obtain ⟨q, rfl⟩ := hg
  have hq : q < 2 ^ 53 := by
    apply Nat.lt_of_mul_lt_mul_right (a := 2 ^ s)
    rwa [Nat.mul_comm q]
  have hle : spareBits (n / d) ≤ s := by
    apply spareBits_le
    rw [Nat.div_lt_iff_lt_mul hd]
    have habove := Nat.mul_le_mul_right (d * 2 ^ s) hq
    rw [Nat.succ_mul] at habove
    have hleft : 2 ^ s * q * d = q * (d * 2 ^ s) := by ac_rfl
    have hright : 2 ^ 53 * 2 ^ s * d = 2 ^ 53 * (d * 2 ^ s) := by ac_rfl
    omega
  by_cases hzero : s = 0
  . omega
  . obtain ⟨k, rfl⟩ := Nat.exists_eq_succ_of_ne_zero hzero
    have hge : k ≤ spareBits (n / d) := by
      apply le_spareBits
      rw [Nat.le_div_iff_mul_le hd]
      have hbelow := Nat.mul_le_mul_right d (hstep (Nat.succ_pos k))
      have hpow : 2 ^ k.succ = 2 * 2 ^ k := by rw [Nat.pow_succ, Nat.mul_comm]
      rw [hpow] at hbelow hlow hhigh
      have hleft : 2 ^ 52 * (2 * 2 ^ k) * d = 2 ^ 53 * (2 ^ k * d) := by ring
      have hright : 2 ^ 52 * 2 ^ k * d = 2 ^ 52 * (2 ^ k * d) := by ac_rfl
      have hmid : d * (2 * 2 ^ k) = 2 * (2 ^ k * d) := by ac_rfl
      omega
    omega

theorem roundUnits_eq_of_error_lt (hd : 0 < d) (hg : 2 ^ spareBits u ∣ u)
    (hlow : 4 * n < 4 * (u * d) + d * 2 ^ spareBits u) (hhigh : 4 * (u * d) < 4 * n + d * 2 ^ spareBits u) :
    roundUnits n d = u := by
  cases spareBits_div hd hg hlow hhigh with
  | inl heq =>
    rw [← heq] at hg hlow hhigh
    apply roundUnits_eq_of_dvd hg <;> omega
  | inr heq =>
    rw [← heq] at hg hlow hhigh
    have hpow : d * 2 ^ (spareBits (n / d) + 1) = 2 * (d * 2 ^ spareBits (n / d)) := by
      rw [Nat.pow_succ]
      ac_rfl
    rw [hpow] at hlow hhigh
    apply roundUnits_eq_of_dvd (Nat.dvd_trans (Nat.pow_dvd_pow 2 (Nat.le_succ _)) hg) <;> omega

end RowSweep.Binary64
