/-!
This module contains the rounding of a nonnegative ratio to the binary64 grid. Magnitudes are
counted in units of `2 ^ -1074`, the smallest positive binary64 value, so that every finite
magnitude is a natural number of units.
-/

namespace RowSweep.Binary64

-- Powers of natural numbers are those of the core library throughout.
attribute [local instance (high)] instPowNat

def spareBits (u : Nat) : Nat :=
  u.log2 - 52

/--
A magnitude of `u` units is a binary64 value if its 53 leading binary digits hold all of it and it
stays below `2 ^ 1024`.
-/
structure Fits (u : Nat) : Prop where
  dvd : 2 ^ spareBits u ∣ u
  log2_lt : u.log2 < 2098

instance : Decidable (Fits u) :=
  decidable_of_iff (2 ^ spareBits u ∣ u ∧ u.log2 < 2098)
    ⟨fun ⟨dvd, lt⟩ => ⟨dvd, lt⟩, fun ⟨dvd, lt⟩ => ⟨dvd, lt⟩⟩

def nearest (n d : Nat) : Nat :=
  let q := n / d
  let twice := 2 * (n % d)
  if twice < d ∨ (twice = d ∧ q % 2 = 0) then q else q + 1

def roundUnits (n d : Nat) : Nat :=
  let step := 2 ^ spareBits (n / d)
  nearest n (d * step) * step

theorem nearest_le (n d : Nat) : nearest n d ≤ n / d + 1 := by
  unfold nearest
  dsimp only
  split <;> omega

theorem spareBits_dvd_mul_two_pow {m : Nat} (h : m ≤ 2 ^ (53 : Nat)) (k : Nat) :
    2 ^ spareBits (m * 2 ^ k) ∣ m * 2 ^ k := by
  by_cases hm : m = 0
  . simp [hm]
  have hpos : m * 2 ^ k ≠ 0 := Nat.mul_ne_zero hm (Nat.ne_of_gt (Nat.two_pow_pos k))
  rcases Nat.lt_or_eq_of_le h with hlt | heq
  . have hlog : (m * 2 ^ k).log2 < 53 + k := by
      rw [Nat.log2_lt hpos, Nat.pow_add]
      exact Nat.mul_lt_mul_of_pos_right hlt (Nat.two_pow_pos k)
    have hle : spareBits (m * 2 ^ k) ≤ k := by
      unfold spareBits
      omega
    exact Nat.dvd_trans (Nat.pow_dvd_pow 2 hle) (Nat.dvd_mul_left _ _)
  . subst heq
    rw [← Nat.pow_add]
    apply Nat.pow_dvd_pow
    unfold spareBits
    rw [Nat.log2_two_pow]
    omega

theorem nearest_roundUnits_le (n d : Nat) :
    nearest n (d * 2 ^ spareBits (n / d)) ≤ 2 ^ (53 : Nat) := by
  refine Nat.le_trans (nearest_le _ _) ?_
  rw [← Nat.div_div_eq_div_mul]
  generalize n / d = q
  by_cases hq : q = 0
  . simp [hq]
  suffices q / 2 ^ spareBits q < 2 ^ (53 : Nat) by omega
  rw [Nat.div_lt_iff_lt_mul (Nat.two_pow_pos _), ← Nat.pow_add, ← Nat.log2_lt hq]
  unfold spareBits
  omega

theorem spareBits_dvd_roundUnits (n d : Nat) : 2 ^ spareBits (roundUnits n d) ∣ roundUnits n d :=
  spareBits_dvd_mul_two_pow (nearest_roundUnits_le n d) _

end RowSweep.Binary64
