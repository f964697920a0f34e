import RowSweep.Proofs.Row.NormalForm
import RowSweep.Proofs.Sweep.Exact
import RowSweep.Proofs.Sweep.InStep

/-!
This module contains sweeps over integers that do not leave the exact range. Two of them over grids whose rows are
powers of two apart stay in step, and integers that are small enough for the number of unknowns never leave that range:
a pass at most squares twice the largest of them.
-/

namespace RowSweep

open Binary64

attribute [local irreducible] unitsPerOne rangeEnd

theorem Binary64.isNormalProduct_of_integer? {x y : Binary64} (hx : x.integer? = some i) (hy : y.integer? = some j) :
    x.IsNormalProduct y := by
  obtain ⟨one, hone⟩ : ∃ one, one = 1074 := ⟨_, rfl⟩
  have hle : 2 ^ 52 ≤ unitsPerOne := by
    rw [unitsPerOne_eq hone]
    exact Nat.pow_le_pow_right (by decide) (by omega)
  unfold IsNormalProduct
  rw [magnitude_of_integer? hx, magnitude_of_integer? hy]
  cases Nat.eq_zero_or_pos (i.natAbs * j.natAbs) with
  | inl hzero =>
    refine Or.inl ?_
    rw [Nat.mul_mul_mul_comm, hzero, Nat.zero_mul]
  | inr hpos =>
    refine Or.inr ?_
    rw [Nat.mul_mul_mul_comm]
    exact Nat.le_trans (Nat.mul_le_mul_right _ hle) (Nat.le_mul_of_pos_left _ hpos)

/-!
### Contents
-/

namespace Row

variable {row row' : Row n} {e : Int}

theorem Shifted.content_eq (h : row.Shifted e row') (hxs : row.integers? = some xs) (hxs' : row'.integers? = some xs') :
    (content xs' : ℚ) = content xs * 2 ^ e := by
  have hcells : ∀ j : Fin n, row'[j].toInt.natAbs * 2 ^ (-e).toNat = row[j].toInt.natAbs * 2 ^ e.toNat := by
    intro j
    obtain ⟨i, -, hi⟩ := exists_integer? hxs j
    obtain ⟨i', -, hi'⟩ := exists_integer? hxs' j
    have hnatAbs := Multipliers.natAbs_eq_of_integer? (h j) hi hi'
    rw [eq_mul_zpow_iff] at hnatAbs
    rw [toInt_of_integer? hi, toInt_of_integer? hi']
    exact_mod_cast hnatAbs
  have hgcd := congrArg (Finset.univ : Finset (Fin n)).gcd (funext hcells)
  rw [Finset.gcd_mul_right, Finset.gcd_mul_right, normalize_eq, normalize_eq, ← content_eq_gcd hxs,
    ← content_eq_gcd hxs'] at hgcd
  rw [eq_mul_zpow_iff]
  exact_mod_cast hgcd

theorem Shifted.isPowerApart_rescale (h : row.Shifted e row') (hrow : row.IsWhole) (hrow' : row'.IsWhole) :
    row.rescale.2.IsPowerApart row'.rescale.2 := by
  cases hpeak : row.peak.isZero with
  | true =>
    rw [rescale_of_isZero hpeak, rescale_of_isZero (by rwa [h.peak.isZero_eq])]
    rfl
  | false =>
    have hpeak' : row'.peak.isZero = false := by rwa [h.peak.isZero_eq]
    obtain ⟨xs, hxs⟩ := hrow.exists_integers?
    obtain ⟨xs', hxs'⟩ := hrow'.exists_integers?
    obtain ⟨hpos, hle, -⟩ := content_spec h.left hpeak hrow.magnitude_peak_le hxs
    obtain ⟨-, hle', -⟩ := content_spec h.right hpeak' hrow'.magnitude_peak_le hxs'
    rw [rescale_of_integers? h.left hpeak hrow.magnitude_peak_le hxs,
      rescale_of_integers? h.right hpeak' hrow'.magnitude_peak_le hxs']
    apply (Multipliers.shifted_ofNat hle hle' (h.content_eq hxs hxs')).isPowerApart
    rw [magnitude_ofNat hle]
    exact Nat.ne_of_gt (Nat.mul_pos hpos unitsPerOne_pos)

end Row

/-!
### Two sweeps that do not leave the exact range
-/

structure Merger.IsExact (merger : Merger n) (t w : Nat) : Prop where
  action : merger.action = .combine
  integral : merger.multipliers.integral = true
  zeroSnap : merger.zeroSnap = .zero
  upper : merger.upper.IsInteger
  lower : merger.lower.IsInteger
  target : merger.multipliers.target.integer? = some (t : Int)
  copy : merger.multipliers.copy.integer? = some (w : Int)
  le : t * merger.upper.largest + w * merger.lower.largest ≤ 2 ^ 53

theorem Merger.IsExact.isWhole_row {merger : Merger n} (h : merger.IsExact t w) : merger.row.IsWhole := by
  intro j
  unfold Merger.row
  rw [h.zeroSnap]
  obtain ⟨hinteger, hle⟩ := Multipliers.integer?_combine h.upper h.lower h.target h.copy h.le j
  rw [exactInteger?_eq_some.mpr ⟨hinteger, hle⟩]
  rfl

namespace Step

variable {settings : SweepSettings} {g g' : Grid m (n + 1)} {c : Fin n} {r : Nat} {h : r + 1 < m}
variable {merger merger' : Merger (n + 1)}

theorem exists_isExact {hr : r < m} (hg : g.IsInteger) (hexact : IsExact settings g c r hr h)
    (hmerger : merger? settings g c r h = some merger) : ∃ t w, merger.IsExact t w := by
  obtain ⟨hupper, hlower⟩ := (exists_merger?_iff hr).mp ⟨merger, hmerger⟩
  obtain ⟨hratio, hcombines⟩ := hexact hupper hlower
  have hu : Row.IsInteger g[r] := hg ⟨r, hr⟩
  have hl : Row.IsInteger g[r + 1] := hg ⟨r + 1, h⟩
  obtain ⟨k, t, w, hk, htarget, hcopy, -, -, -, hle⟩ := Multipliers.exists_integral? hu hl hupper hlower hcombines
  have hmultipliers := multipliers_eq_whole (h := h) hratio hk (Multipliers.staysExact_of_le htarget hcopy hu hl hle)
  have hwhole := integral_of_integral? hk
  have heq : merger = ⟨.combine, k, .zero, g[r], g[r + 1]⟩ := by
    rw [← Option.some.injEq, ← hmerger]
    unfold merger?
    dsimp only
    rw [hmultipliers, hwhole, hupper, hlower]
    simp
  subst heq
  exact ⟨t, w, rfl, hwhole, rfl, hu, hl, htarget, hcopy, hle⟩

theorem Merges.isNormal_of_isExact {upper lower : Row (n + 1)} (merges : Merges settings upper lower c merger)
    (hexact : merger.IsExact t w) : merger.IsNormal c := by
  obtain ⟨x, y, hx, hy, -⟩ := Multipliers.integral?_eq_some.mp (merges.pairing.integral?_eq hexact.integral)
  obtain ⟨hx, hxle⟩ := exactInteger?_eq_some.mp hx
  obtain ⟨hy, hyle⟩ := exactInteger?_eq_some.mp hy
  obtain ⟨range, hrange⟩ : ∃ range, range = 1022 := ⟨_, rfl⟩
  have hspread : ∀ {x y : Binary64} {i j : Int}, x.integer? = some i → i.natAbs ≤ 2 ^ 53 → y.integer? = some j →
      y.isZero = false → x.magnitude ≤ 2 ^ range * y.magnitude := by
    intro x y i j hi hle hj hzero
    have hne : 0 < j.natAbs := by
      apply Nat.pos_of_ne_zero
      intro hj0
      rw [(isZero_iff_of_integer? hj).mpr (Int.natAbs_eq_zero.mp hj0)] at hzero
      cases hzero
    have hpow : 2 ^ 53 ≤ 2 ^ range := Nat.pow_le_pow_right (by decide) (by omega)
    rw [magnitude_of_integer? hi, magnitude_of_integer? hj, ← Nat.mul_assoc]
    apply Nat.mul_le_mul_right
    exact Nat.le_trans hle (Nat.le_trans hpow (Nat.le_mul_of_pos_right _ hne))
  have hratio : merger.upper[c.castSucc].IsComparable merger.lower[c.castSucc] := by
    unfold IsComparable
    rw [← hrange]
    exact ⟨hspread hx hxle hy merges.lowerEntry, hspread hy hyle hx merges.upperEntry⟩
  refine ⟨hratio, fun j => ⟨?_, ?_, ?_⟩⟩
  . exact isNormalProduct_of_integer? (hexact.upper.integer? j) hexact.target
  . exact isNormalProduct_of_integer? (hexact.lower.integer? j) (Sign.integer?_apply hexact.copy _)
  . rw [hexact.zeroSnap]
    exact Or.inl (Nat.zero_mul _)

theorem keepsStep_of_isExact {M : Nat} (hr : r < m) (hin : g.InStep g') (hM : IsCellBound M) (hg : g.Within M)
    (hg' : g'.Within M) (hpivoting : settings.pairwisePivoting = true) (hsnap : Within unitsPerOne settings.zeroSnap)
    (merges : Merges settings g[r] g[r + 1] c merger) (merges' : Merges settings g'[r] g'[r + 1] c merger')
    (hexact : merger.IsExact t w) (hexact' : merger'.IsExact t' w') : merger.KeepsStep merger' c := by
  have haction : merger'.action = merger.action := hexact'.action.trans hexact.action.symm
  have hintegral : merger'.multipliers.integral = merger.multipliers.integral :=
    hexact'.integral.trans hexact.integral.symm
  have hnormal := merges.isNormal_of_isExact hexact
  have hnormal' := merges'.isNormal_of_isExact hexact'
  obtain ⟨hupper, hlower⟩ := merges.within hr hg
  obtain ⟨hupper', hlower'⟩ := merges'.within hr hg'
  obtain ⟨⟨a, hu⟩, ⟨b, hl⟩⟩ := merges.rows_rel (R := fun row row' => ∃ e, row.Shifted e row') merges' haction
    (hin ⟨r, hr⟩) (hin ⟨r + 1, h⟩)
  obtain ⟨f, hrow⟩ := merges.exists_shifted_row merges' hintegral hnormal hnormal' hu hl hpivoting hM hsnap hupper
    hlower hupper' hlower'
  have hdivisor := hrow.isPowerApart_rescale hexact.isWhole_row hexact'.isWhole_row
  exact Or.inr ⟨⟨haction, hintegral, hdivisor⟩, hnormal, hnormal'⟩

end Step

namespace Sweep

theorem IsExact.inStep_run {settings : SweepSettings} {g g' : Grid m (n + 1)} {h : n ≤ m} {M : Nat}
    (hexact : IsExact settings g h) (hexact' : IsExact settings g' h) (hin : g.InStep g')
    (hpivoting : settings.pairwisePivoting = true) (hsnap : Within unitsPerOne settings.zeroSnap)
    (hM : Step.IsCellBound M) (hg : g.Within M) (hg' : g'.Within M) :
    (run settings g h).InStep (run settings g' h) := by
  apply inStep_run_of_step (Q := fun _ _ _ _ => True) hM hg hg' hpivoting hsnap
  case hstep =>
    intro c r hr reached reached' hinStep _
    refine ⟨?_, trivial⟩
    intro merger hmerger merger' hmerger'
    have hr' := Nat.lt_of_succ_lt hr
    have hlt := reached.lt
    have hlt' := reached'.lt
    have hopen : r ≤ (upTo settings g h c).openRows - 1 := by omega
    have hopen' : r ≤ (upTo settings g' h c).openRows - 1 := by omega
    obtain ⟨t, w, hmergerExact⟩ := Step.exists_isExact (hexact.matches_before c hr' hopen).integer
      (hexact.steps c r hr' hr reached) hmerger
    obtain ⟨t', w', hmergerExact'⟩ := Step.exists_isExact (hexact'.matches_before c hr' hopen').integer
      (hexact'.steps c r hr' hr reached') hmerger'
    exact Step.keepsStep_of_isExact hr' hinStep.grid hM (within_before hM hg c hr' hopen)
      (within_before hM hg' c hr' hopen') hpivoting hsnap (Step.merges_of_merger? hr' hmerger)
      (Step.merges_of_merger? hr' hmerger') hmergerExact hmergerExact'
  case hpass => exact fun _ _ _ => trivial
  case hsettle => exact fun _ _ _ => trivial
  case hin => exact hin
  case hQ => trivial

end Sweep

/-!
### Small integers
-/

namespace Row

/--
A row of integers that stay in the exact range if twice the largest of them is squared `p` times.
-/
structure IsSmall (p : Nat) (row : Row n) : Prop where
  integer : row.IsInteger
  le : (2 * row.largest) ^ 2 ^ p ≤ 2 ^ 54

instance (p : Nat) (row : Row n) : Decidable (row.IsSmall p) :=
  decidable_of_iff (row.IsInteger ∧ (2 * row.largest) ^ 2 ^ p ≤ 2 ^ 54)
    ⟨fun h => ⟨h.left, h.right⟩, fun h => ⟨h.integer, h.le⟩⟩

namespace IsSmall

variable {upper lower row : Row n}

theorem root_le (h : row.IsSmall (p + 1)) : (2 * row.largest) ^ 2 ^ p ≤ 2 ^ 27 := by
  have hle := h.le
  rw [Nat.pow_succ 2 p, Nat.pow_mul] at hle
  have hsquare : 2 ^ 54 = (2 ^ 27) ^ 2 := rfl
  rw [hsquare] at hle
  exact (Nat.pow_le_pow_iff_left (by decide)).mp hle

theorem of_succ (h : row.IsSmall (p + 1)) : row.IsSmall p :=
  ⟨h.integer, Nat.le_trans h.root_le (by decide)⟩

theorem two_mul_largest_le (h : row.IsSmall (p + 1)) : 2 * row.largest ≤ 2 ^ 27 :=
  Nat.le_trans (Nat.le_self_pow (Nat.ne_of_gt (Nat.two_pow_pos p)) _) h.root_le

theorem combinesExactly (hu : upper.IsSmall (p + 1)) (hl : lower.IsSmall (p + 1)) (c : Fin n) :
    upper.CombinesExactly lower c := by
  have hupper := Nat.le_trans (Nat.div_le_self _ (Nat.gcd upper[c].toInt.natAbs lower[c].toInt.natAbs))
    (upper.natAbs_le_largest c)
  have hlower := Nat.le_trans (Nat.div_le_self _ (Nat.gcd upper[c].toInt.natAbs lower[c].toInt.natAbs))
    (lower.natAbs_le_largest c)
  have hu := hu.two_mul_largest_le
  have hl := hl.two_mul_largest_le
  have hproduct : upper.largest * lower.largest ≤ 2 ^ 26 * 2 ^ 26 := Nat.mul_le_mul (by omega) (by omega)
  have hleft := Nat.mul_le_mul_right upper.largest hlower
  have hright := Nat.mul_le_mul_right lower.largest hupper
  rw [Nat.mul_comm lower.largest] at hleft
  unfold CombinesExactly
  dsimp only
  omega

theorem of_largest_le (hu : upper.IsSmall (p + 1)) (hl : lower.IsSmall (p + 1)) (hrow : row.IsInteger)
    (hle : row.largest ≤ 2 * (upper.largest * lower.largest)) : row.IsSmall p := by
  refine ⟨hrow, ?_⟩
  calc
    (2 * row.largest) ^ 2 ^ p ≤ (2 * upper.largest * (2 * lower.largest)) ^ 2 ^ p := by
      apply Nat.pow_le_pow_left
      rw [Nat.mul_mul_mul_comm]
      omega
    _ = (2 * upper.largest) ^ 2 ^ p * (2 * lower.largest) ^ 2 ^ p := Nat.mul_pow _ _ _
    _ ≤ 2 ^ 27 * 2 ^ 27 := Nat.mul_le_mul hu.root_le hl.root_le

end IsSmall

end Row

namespace Sweep

/--
Before pair `r` of a pass the rows from `r` on are as small as they were, and those above may have been combined once.
They have not been if the column has no entry so far.
-/
structure StaysSmall (c : Fin n) (r : Nat) (hr : r < m) (s : Sweep m n) : Prop where
  integer : s.grid.IsInteger
  below : ∀ i (hi : i < m), r ≤ i → i < s.openRows → Row.IsSmall (s.openRows - 1) s.grid[i]
  above : ∀ i (hi : i < m), i < r → Row.IsSmall (s.openRows - 2) s.grid[i]
  alone : s.grid[r][c.castSucc].isZero = true → ∀ i (hi : i < m), i < r → Row.IsSmall (s.openRows - 1) s.grid[i]

structure IsSmall (s : Sweep m n) : Prop where
  integer : s.grid.IsInteger
  rows : ∀ i (hi : i < m), i < s.openRows → Row.IsSmall (s.openRows - 1) s.grid[i]

variable {settings : SweepSettings} {g : Grid m (n + 1)} {h : n ≤ m} {c : Fin n}

namespace StaysSmall

variable {r : Nat} {hr : r < m} {s : Sweep m n}

theorem pair (hs : StaysSmall c r hr s) (hr1 : r + 1 < m) (hopen : r + 1 < s.openRows) :
    Row.IsSmall (s.openRows - 2 + 1) s.grid[r] ∧ Row.IsSmall (s.openRows - 2 + 1) s.grid[r + 1] := by
  have hsucc : s.openRows - 1 = s.openRows - 2 + 1 := by omega
  rw [← hsucc]
  exact ⟨hs.below r hr (Nat.le_refl r) (by omega), hs.below (r + 1) hr1 (Nat.le_succ r) hopen⟩

theorem isExact (hs : StaysSmall c r hr s) (hratio : settings.integerRatio = true) (hr1 : r + 1 < m)
    (hopen : r + 1 < s.openRows) : Step.IsExact settings s.grid c r hr hr1 := by
  intro _ _
  obtain ⟨hupper, hlower⟩ := hs.pair hr1 hopen
  exact ⟨hratio, hupper.combinesExactly hlower c.castSucc⟩

section record

variable {hr1 : r + 1 < m} {step : Step m (n + 1)} (hs : StaysSmall c r hr s) (hopen : r + 1 < s.openRows)
variable (hinteger : (s.record step).grid.IsInteger)

include hs hopen hinteger

theorem record_skip (hzero : s.grid[r][c.castSucc].isZero = true) (grid_eq : step.grid = s.grid) :
    StaysSmall c (r + 1) hr1 (s.record step) := by
  have hupper := hs.below r hr (Nat.le_refl r) (by omega)
  refine ⟨hinteger, ?_, ?_, ?_⟩
  . intro i hi hri hiopen
    rw [openRows_record] at hiopen ⊢
    simp only [grid_record, grid_eq]
    exact hs.below i hi (by omega) hiopen
  . intro i hi hir
    rw [openRows_record]
    simp only [grid_record, grid_eq]
    cases Nat.eq_or_lt_of_le (Nat.le_of_lt_succ hir) with
    | inl heq =>
      subst heq
      exact (hs.pair hr1 hopen).left.of_succ
    | inr hlt => exact hs.above i hi hlt
  . intro _ i hi hir
    rw [openRows_record]
    simp only [grid_record, grid_eq]
    cases Nat.eq_or_lt_of_le (Nat.le_of_lt_succ hir) with
    | inl heq =>
      subst heq
      exact hupper
    | inr hlt => exact hs.alone hzero i hi hlt

theorem record_swap (hentry : s.grid[r][c.castSucc].isZero = false) (grid_eq : step.grid = s.grid.swap r (r + 1)) :
    StaysSmall c (r + 1) hr1 (s.record step) := by
  refine ⟨hinteger, ?_, ?_, ?_⟩
  . intro i hi hri hiopen
    rw [openRows_record] at hiopen ⊢
    simp only [grid_record, grid_eq]
    by_cases heq : i = r + 1
    . subst heq
      rw [Vector.getElem_swap_right]
      exact hs.below r hr (Nat.le_refl r) (by omega)
    . rw [Vector.getElem_swap_of_ne (by omega) heq]
      exact hs.below i hi (by omega) hiopen
  . intro i hi hir
    rw [openRows_record]
    simp only [grid_record, grid_eq]
    by_cases heq : i = r
    . subst heq
      rw [Vector.getElem_swap_left]
      exact (hs.pair hr1 hopen).right.of_succ
    . rw [Vector.getElem_swap_of_ne heq (by omega)]
      exact hs.above i hi (by omega)
  . intro hzero
    simp only [grid_record, grid_eq, Vector.getElem_swap_right] at hzero
    rw [hentry] at hzero
    cases hzero

theorem record_combine (hentry : s.grid[r + 1][c.castSucc].isZero = false) (hmerged : merged.IsInteger)
    (hbound : merged.largest ≤ 2 * (s.grid[r].largest * s.grid[r + 1].largest))
    (grid_eq : step.grid = s.grid.set r merged) : StaysSmall c (r + 1) hr1 (s.record step) := by
  refine ⟨hinteger, ?_, ?_, ?_⟩
  . intro i hi hri hiopen
    rw [openRows_record] at hiopen ⊢
    simp only [grid_record, grid_eq]
    rw [Vector.getElem_set_ne _ _ (by omega)]
    exact hs.below i hi (by omega) hiopen
  . intro i hi hir
    rw [openRows_record]
    simp only [grid_record, grid_eq]
    by_cases heq : i = r
    . subst heq
      rw [Vector.getElem_set_self]
      obtain ⟨hupper, hlower⟩ := hs.pair hr1 hopen
      exact hupper.of_largest_le hlower hmerged hbound
    . rw [Vector.getElem_set_ne _ _ (by omega)]
      exact hs.above i hi (by omega)
  . intro hzero
    simp only [grid_record, grid_eq, Vector.getElem_set_ne _ _ (Nat.ne_of_lt (Nat.lt_succ_self r))] at hzero
    rw [hentry] at hzero
    cases hzero

omit hinteger in
theorem record (hstep : Step.ExactEffect s.grid c r hr hr1 step) : StaysSmall c (r + 1) hr1 (s.record step) := by
  have hinteger : (s.record step).grid.IsInteger := by
    rw [grid_record]
    exact hstep.isInteger hs.integer
  cases hstep with
  | skip upper grid_eq => exact hs.record_skip hopen hinteger upper grid_eq
  | swap upper lower grid_eq => exact hs.record_swap hopen hinteger upper grid_eq
  | combine lower combination cleared bound grid_eq =>
    exact hs.record_combine hopen hinteger lower combination.integer bound grid_eq

end record

end StaysSmall

theorem staysSmall_before (hratio : settings.integerRatio = true) (c : Fin n) (hsmall : (upTo settings g h c).IsSmall)
    (hr : r < m) (hopen : r ≤ (upTo settings g h c).openRows - 1) (hs : (before settings g h c r hr).ended = none) :
    StaysSmall c r hr (before settings g h c r hr) := by
  induction r with
  | zero =>
    refine ⟨hsmall.integer, fun i hi _ hiopen => hsmall.rows i hi hiopen, ?_, ?_⟩
    . exact fun i _ hi => absurd hi (Nat.not_lt_zero i)
    . exact fun _ i _ hi => absurd hi (Nat.not_lt_zero i)
  | succ r ih =>
    have hended := ended_of_pairs_succ hr hs
    have ih := ih (by omega) (by omega) hended
    have hopenRows : (before settings g h c r (Nat.lt_of_succ_lt hr)).openRows = (upTo settings g h c).openRows :=
      (before_frame c (Nat.lt_of_succ_lt hr)).left
    have hexact := ih.isExact hratio hr (by omega)
    rw [before_succ c hr hended]
    exact ih.record (by omega) (Step.exactEffect_ofPair ih.integer hexact).left

theorem isSmall_upTo (hratio : settings.integerRatio = true) (hstart : (start g h).IsSmall) (hp : p ≤ n)
    (hs : (upTo settings g h p).ended = none) : (upTo settings g h p).IsSmall := by
  induction p with
  | zero => exact hstart
  | succ p ih =>
    obtain ⟨hended, hsweptEnded⟩ := ended_upTo_succ ⟨p, hp⟩ hs
    have hsmall := staysSmall_before hratio ⟨p, hp⟩ (ih (by omega) hended) (lowest_lt h ⟨p, hp⟩ _) (Nat.le_refl _)
      hsweptEnded
    have hopenRows : (swept settings g h ⟨p, hp⟩).openRows = (upTo settings g h p).openRows :=
      (swept_frame settings g h ⟨p, hp⟩).left
    rw [upTo_succ_eq_settle ⟨p, hp⟩ hs]
    refine ⟨by rw [grid_settle]; exact hsmall.integer, ?_⟩
    intro i hi hiopen
    rw [grid_settle]
    cases settled_settle ⟨p, hp⟩ (swept settings g h ⟨p, hp⟩) with
    | pivot hk hlt hentry hopen' =>
      have hlevel : ((swept settings g h ⟨p, hp⟩).settle ⟨p, hp⟩).openRows - 1 =
          (swept settings g h ⟨p, hp⟩).openRows - 2 := by omega
      have habove : i < (upTo settings g h p).openRows - 1 := by omega
      rw [hlevel]
      exact hsmall.above i hi habove
    | free hentry hopen' =>
      -- Nothing was combined in a column without a pivot.
      rw [hopen'] at hiopen ⊢
      have hlowest := hentry ((upTo settings g h p).openRows - 1) (lowest_lt h ⟨p, hp⟩ _) (by omega)
      cases Nat.lt_or_ge i ((upTo settings g h p).openRows - 1) with
      | inl habove => exact hsmall.alone hlowest i hi habove
      | inr hbelow => exact hsmall.below i hi hbelow hiopen

end Sweep

namespace Grid

/--
Integers so small that no combination leaves the exact range: twice the largest of them, squared once for each unknown
but the last one, is at most `2 ^ 54`.
-/
def IsSmallInteger (g : Grid m (n + 1)) : Prop :=
  ∀ i : Fin m, Row.IsSmall (n - 1) g[i]

instance (g : Grid m (n + 1)) : Decidable g.IsSmallInteger :=
  inferInstanceAs (Decidable (∀ i : Fin m, Row.IsSmall (n - 1) g[i]))

theorem IsSmallInteger.orderRows {g : Grid m (n + 1)} (hg : g.IsSmallInteger) : g.orderRows.grid.IsSmallInteger :=
  forall_row_of_perm (P := Row.IsSmall (n - 1)) g.perm_orderRows.symm hg

theorem IsSmallInteger.isExact {settings : SweepSettings} {g : Grid m (n + 1)} {h : n ≤ m} (hg : g.IsSmallInteger)
    (hratio : settings.integerRatio = true) : Sweep.IsExact settings g h := by
  refine ⟨fun i => (hg i).integer, ?_⟩
  intro c r hr hr1 reached
  have hlt := reached.lt
  have hupTo := Sweep.isSmall_upTo hratio ⟨fun i => (hg i).integer, fun i hi _ => hg ⟨i, hi⟩⟩ (Nat.le_of_lt c.isLt)
    (Sweep.ended_of_before c hr reached.ended)
  have hopenRows : (Sweep.before settings g h c r hr).openRows = (Sweep.upTo settings g h c).openRows :=
    (Sweep.before_frame c hr).left
  exact (Sweep.staysSmall_before hratio c hupTo hr (by omega) reached.ended).isExact hratio hr1 (by omega)

end Grid

end RowSweep
