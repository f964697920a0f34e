import RowSweep.Proofs.BackSubstitution
import RowSweep.Proofs.Binary64.Units

/-!
This module contains the basis of a grid as a map: each unknown that is the first one of some row is read from the
topmost such row. Rows that repeat earlier ones make no difference. A substitution along a basis only fails for its
entries, whatever is known of the other unknowns.
-/

namespace RowSweep

theorem Row.leading?_congr {row row' : Row (n + 1)} (h : Row.eqv row row' = true) : row.leading? = row'.leading? := by
  unfold Row.eqv at h
  rw [List.all_eq_true] at h
  unfold leading?
  congr 1
  funext j
  rw [Binary64.isZero_eq_of_eqv (h j.castSucc (List.mem_finRange _))]

structure Grid.IsFirstRow (g : Grid m (n + 1)) (i : Fin m) (c : Fin n) : Prop where
  leading : Row.leading? g[i] = some c
  first : ∀ k < i, Row.leading? g[k] ≠ some c

namespace Basis

variable {g : Grid m (n + 1)} {i : Fin m} {c : Fin n}

theorem exists_isFirstRow (h : Row.leading? g[i] = some c) : ∃ k ≤ i, g.IsFirstRow k c := by
  induction i using WellFoundedLT.induction with
  | ind i ih =>
    by_cases hfirst : ∀ k < i, Row.leading? g[k] ≠ some c
    . exact ⟨i, Std.le_refl i, h, hfirst⟩
    . simp only [not_forall, not_not] at hfirst
      obtain ⟨k, hk, hleading⟩ := hfirst
      obtain ⟨k', hk', hrow⟩ := ih k hk hleading
      exact ⟨k', by omega, hrow⟩

theorem ofRow?_of_isFirstRow (h : g.IsFirstRow i c) : ofRow? g i = some ⟨c, i, c⟩ := by
  -- The first row with an unknown repeats none, since the repeated row would have the unknown too.
  rw [ofRow?_eq_some]
  refine ⟨?_, c, h.leading, rfl⟩
  cases hdup : g.duplicateOf? i with
  | none => rfl
  | some k =>
    obtain ⟨hlt, heqv⟩ := Grid.eqv_of_duplicateOf? hdup
    exact absurd ((Row.leading?_congr heqv).trans h.leading) (h.first k hlt)

theorem isTopmost_iff : IsTopmost g i e ↔ ∃ c, g.IsFirstRow i c ∧ e = ⟨c, i, c⟩ := by
  constructor
  . intro htop
    obtain ⟨-, c, hleading, rfl⟩ := ofRow?_eq_some.mp htop.entry
    refine ⟨c, ⟨hleading, ?_⟩, rfl⟩
    intro k hk hearlier
    obtain ⟨k', hk', hrow⟩ := exists_isFirstRow hearlier
    exact htop.first k' (by omega) _ (ofRow?_of_isFirstRow hrow) rfl
  . intro hex
    obtain ⟨c, hrow, rfl⟩ := hex
    refine ⟨ofRow?_of_isFirstRow hrow, ?_⟩
    intro k hk f hf hunknown
    obtain ⟨-, c', hleading, rfl⟩ := ofRow?_eq_some.mp hf
    obtain rfl : c' = c := Fin.ext (Int.ofNat_inj.mp hunknown)
    exact hrow.first k hk hleading

theorem mem_ofGrid_iff : e ∈ ofGrid g ↔ ∃ i c, g.IsFirstRow i c ∧ e = ⟨c, i, c⟩ := by
  rw [mem_ofGrid]
  simp only [isTopmost_iff]

/-!
### Without a look at earlier rows
-/

def addLeading (g : Grid m (n + 1)) (basis : Basis) (i : Fin m) : Basis :=
  match Row.leading? g[i] with
  | some c => basis.insertNew ⟨c, i, c⟩
  | none => basis

theorem insertNew_of_has {basis : Basis} (hsorted : basis.IsSorted) (h : basis.has e.unknown = true) :
    basis.insertNew e = basis := by
  obtain ⟨f, hmem, hunknown⟩ := has_iff.mp h
  apply (isSorted_insertNew hsorted e).eq_of_mem_iff hsorted
  intro f'
  rw [mem_insertNew hsorted]
  refine ⟨?_, Or.inl⟩
  intro hor
  cases hor with
  | inl hmem' => exact hmem'
  | inr hnew => exact absurd hunknown (hnew.right f hmem)

theorem addRow_upTo (i : Fin m) : addRow g (upTo g i) i = addLeading g (upTo g i) i := by
  -- A row that repeats an earlier one has an unknown that is in the basis already.
  obtain ⟨hsorted, hmem⟩ := upTo_spec (g := g) (Nat.le_of_lt i.isLt)
  unfold addRow addLeading ofRow?
  cases hdup : g.duplicateOf? i with
  | none => cases Row.leading? g[i] <;> rfl
  | some k =>
    obtain ⟨hlt, heqv⟩ := Grid.eqv_of_duplicateOf? hdup
    cases hleading : Row.leading? g[i] with
    | none => rfl
    | some c =>
      obtain ⟨k', hk', hrow⟩ := exists_isFirstRow ((Row.leading?_congr heqv).trans hleading)
      have hentry : ⟨c, k', c⟩ ∈ upTo g i :=
        (hmem _).mpr ⟨k', by omega, isTopmost_iff.mpr ⟨c, hrow, rfl⟩⟩
      have hhas : (upTo g i).has c = true := has_iff.mpr ⟨_, hentry, rfl⟩
      exact (insertNew_of_has (e := ⟨c, i, c⟩) hsorted hhas).symm

theorem upTo_eq_foldl (hk : k ≤ m) : upTo g k = ((List.finRange m).take k).foldl (addLeading g) [] := by
  induction k with
  | zero => rfl
  | succ k ih =>
    have hsucc : upTo g (k + 1) = addRow g (upTo g k) ⟨k, hk⟩ := upTo_succ ⟨k, hk⟩
    have hadd : addRow g (upTo g k) ⟨k, hk⟩ = addLeading g (upTo g k) ⟨k, hk⟩ := addRow_upTo ⟨k, hk⟩
    rw [hsucc, hadd, ih (Nat.le_of_lt hk), List.take_succ_eq_append_getElem (by simpa using hk), List.foldl_append,
      List.getElem_finRange]
    rfl

theorem ofGrid_eq_foldl (g : Grid m (n + 1)) : ofGrid g = (List.finRange m).foldl (addLeading g) [] := by
  rw [← upTo_length, upTo_eq_foldl (Nat.le_refl m), List.take_of_length_le (by simp)]

end Basis

/-!
### Substitution along a basis
-/

/--
What is wrong with an entry for a grid: it names another column than its unknown, something that is not on the grid,
or a zero.
-/
inductive BasisEntry.IsMalformed (g : Grid m (n + 1)) (e : BasisEntry) : Prop where
  | column (h : e.column ≠ e.unknown) : IsMalformed g e
  | unknown (h : ¬ (0 ≤ e.unknown ∧ e.unknown < n)) : IsMalformed g e
  | row (h : ¬ (0 ≤ e.row ∧ e.row < m)) : IsMalformed g e
  | zero (i : Fin m) (c : Fin n) (hrow : e.row = i) (hunknown : e.unknown = c)
      (h : g[i][c.castSucc].isZero = true) : IsMalformed g e

theorem exists_foldlM_eq_error {f : α → β → Except ε α} {bs : List β} (hmem : b ∈ bs)
    (h : ∀ a, ∃ e, f a b = .error e) (a : α) : ∃ e, bs.foldlM f a = .error e := by
  induction bs generalizing a with
  | nil => cases hmem
  | cons b' bs ih =>
    rw [List.foldlM_cons]
    cases hmem with
    | head =>
      obtain ⟨e, he⟩ := h a
      rw [he]
      exact ⟨e, rfl⟩
    | tail _ hmem =>
      cases f a b' with
      | error e => exact ⟨e, rfl⟩
      | ok a' => exact ih hmem a'

namespace Basis

variable {g : Grid m (n + 1)} {e : BasisEntry}

theorem exists_substitute_eq_error (h : e.IsMalformed g) (basis : Basis) (x : Row n) :
    ∃ fault, basis.substitute g x e = .error fault := by
  unfold substitute
  split
  next hwell =>
    cases h with
    | column h => exact absurd hwell.left h
    | unknown h => exact absurd ⟨hwell.right.left, hwell.right.right.left⟩ h
    | row h => exact absurd ⟨hwell.right.right.right.left, hwell.right.right.right.right⟩ h
    | zero i c hrow hunknown hzero =>
      have hi : e.row.toNat = i := by omega
      have hc : e.unknown.toNat = c := by omega
      dsimp only
      simp only [hi, hc]
      exact ⟨_, if_pos hzero⟩
  next => exact ⟨_, rfl⟩

theorem exists_place_of_not_isMalformed (h : ¬ e.IsMalformed g) :
    ∃ (i : Fin m) (c : Fin n), e = ⟨c, i, c⟩ ∧ g[i][c.castSucc].isZero = false := by
  have hcolumn : e.column = e.unknown := Decidable.not_not.mp fun hne => h (.column hne)
  have hunknown : 0 ≤ e.unknown ∧ e.unknown < n := Decidable.not_not.mp fun hne => h (.unknown hne)
  have hrow : 0 ≤ e.row ∧ e.row < m := Decidable.not_not.mp fun hne => h (.row hne)
  have hi : e.row = (e.row.toNat : Int) := (Int.toNat_of_nonneg hrow.left).symm
  have hc : e.unknown = (e.unknown.toNat : Int) := (Int.toNat_of_nonneg hunknown.left).symm
  refine ⟨⟨e.row.toNat, by omega⟩, ⟨e.unknown.toNat, by omega⟩, ?_, ?_⟩
  . cases e
    simp only [BasisEntry.mk.injEq]
    exact ⟨hc, hi, hcolumn.trans hc⟩
  . rw [← Bool.not_eq_true]
    exact fun hzero => h (.zero _ _ hi hc hzero)

theorem substitute_eq_ok_of_not_isMalformed (h : ¬ e.IsMalformed g) (basis : Basis) (x : Row n) :
    ∃ x', basis.substitute g x e = .ok x' ∧ ∀ j : Fin n, (j : Int) ≠ e.unknown → x'[j] = x[j] := by
  obtain ⟨i, c, rfl, hpivot⟩ := exists_place_of_not_isMalformed h
  rw [substitute_of_place, hpivot]
  refine ⟨_, rfl, ?_⟩
  intro j hj
  apply Vector.getElem_set_ne
  dsimp only at hj
  omega

theorem exists_particularSolution_eq_error_iff (g : Grid m (n + 1)) (basis : Basis) :
    (∃ fault, (basis.particularSolution g : Except InvariantFault (Row n)) = .error fault) ↔
      ∃ e ∈ basis, e.IsMalformed g := by
  constructor
  . intro hfault
    apply Classical.byContradiction
    intro hnone
    simp only [not_exists, not_and] at hnone
    have hok : ∃ x, basis.particularSolution g = .ok x := by
      apply exists_foldlM
      intro x e hmem
      obtain ⟨x', hx', -⟩ := substitute_eq_ok_of_not_isMalformed (hnone e (List.mem_reverse.mp hmem)) basis x
      exact ⟨x', hx'⟩
    obtain ⟨x, hx⟩ := hok
    obtain ⟨fault, hfault⟩ := hfault
    rw [hx] at hfault
    cases hfault
  . intro hex
    obtain ⟨e, hmem, hmalformed⟩ := hex
    exact exists_foldlM_eq_error (List.mem_reverse.mpr hmem) (exists_substitute_eq_error hmalformed basis) _

theorem getElem_particularSolution {basis : Basis} {x : Row n} (hx : basis.particularSolution g = .ok x) {j : Fin n}
    (hj : basis.has j = false) : x[j] = .zero := by
  -- Every entry sets its own unknown, so what was zero at the start stays so where the basis has no entry.
  have hgood : ∀ e ∈ basis, ¬ e.IsMalformed g := by
    intro e hmem hmalformed
    obtain ⟨fault, hfault⟩ := (exists_particularSolution_eq_error_iff g basis).mpr ⟨e, hmem, hmalformed⟩
    rw [hx] at hfault
    cases hfault
  have hfold := foldlM_of_step (f := basis.substitute g) (List.reverse basis)
    (P := fun _ x => x[j] = .zero) (a := Vector.replicate n .zero) ?_ (by simp [getElem_fin])
  . obtain ⟨x', hx', hzero⟩ := hfold
    unfold particularSolution at hx
    rw [hx] at hx'
    cases hx'
    exact hzero
  . intro done e rest hsplit x hzero
    have hmem : e ∈ basis := by
      rw [← List.mem_reverse, hsplit]
      simp
    have hne : (j : Int) ≠ e.unknown := by
      intro heq
      have hhas : basis.has j = true := has_iff.mpr ⟨e, hmem, heq.symm⟩
      rw [hj] at hhas
      cases hhas
    obtain ⟨x', hx', hother⟩ := substitute_eq_ok_of_not_isMalformed (hgood e hmem) basis x
    exact ⟨x', hx', (hother j hne).trans hzero⟩

end Basis

theorem basis_of_grid (g : Grid m (n + 1)) :
    (Basis.ofGrid g).IsSorted ∧
    (∀ e, e ∈ Basis.ofGrid g ↔ ∃ i c, g.IsFirstRow i c ∧ e = ⟨c, i, c⟩) ∧
    Basis.ofGrid g = (List.finRange m).foldl (Basis.addLeading g) [] ∧
    (∃ x, (Basis.ofGrid g).particularSolution g = .ok x ∧
      ∀ j : Fin n, (Basis.ofGrid g).has j = false → x[j] = .zero) ∧
    ∀ basis : Basis, (∃ fault, (basis.particularSolution g : Except InvariantFault (Row n)) = .error fault) ↔
      ∃ e ∈ basis, e.IsMalformed g := by
  refine ⟨Basis.isSorted_ofGrid g, fun _ => Basis.mem_ofGrid_iff, Basis.ofGrid_eq_foldl g, ?_,
    Basis.exists_particularSolution_eq_error_iff g⟩
  obtain ⟨x, hx⟩ := Basis.exists_particularSolution g
  exact ⟨x, hx, fun j => Basis.getElem_particularSolution hx⟩

end RowSweep
