import Mathlib
import RowSweep.BackSubstitution

/-!
This module contains what the ways to read a solution off a grid rely on: a basis names each unknown once and the
topmost row that starts with it, and no substitution comes to a row without a pivot.
-/

namespace RowSweep

theorem Row.leading?_eq_some {row : Row (n + 1)} {c : Fin n} :
    row.leading? = some c ↔ row[c.castSucc].isZero = false ∧ ∀ j < c, row[j.castSucc].isZero = true := by
  unfold leading?
  rw [List.find?_eq_some_iff_getElem, Bool.not_eq_true']
  apply and_congr_right
  intro _
  simp only [List.getElem_finRange, Bool.not_not]
  constructor
  . intro h j hj
    obtain ⟨i, hi, rfl, hbefore⟩ := h
    exact hbefore j hj
  . intro h
    exact ⟨c, by simp, rfl, fun j hj => h ⟨j, by omega⟩ hj⟩

theorem Row.leading?_eq_none {row : Row (n + 1)} :
    row.leading? = none ↔ ∀ j : Fin n, row[j.castSucc].isZero = true := by
  unfold leading?
  rw [List.find?_eq_none]
  simp [List.mem_finRange]

theorem Grid.eqv_of_duplicateOf? {g : Grid m n} {i k : Fin m} (h : g.duplicateOf? i = some k) :
    k < i ∧ Row.eqv g[k] g[i] = true := by
  unfold duplicateOf? similarRow? at h
  rw [Option.filter_eq_some_iff] at h
  have hk := List.find?_some h.left
  rw [Bool.and_eq_true] at hk
  exact ⟨of_decide_eq_true h.right, hk.right⟩

namespace Basis

def IsSorted (basis : Basis) : Prop :=
  List.Pairwise (fun e f : BasisEntry => e.unknown < f.unknown) basis

theorem IsSorted.eq_of_mem_iff {basis basis' : Basis} (h : basis.IsSorted) (h' : basis'.IsSorted)
    (hmem : ∀ e, e ∈ basis ↔ e ∈ basis') : basis = basis' := by
  have : Std.Asymm fun e f : BasisEntry => e.unknown < f.unknown := ⟨fun _ _ hlt => Int.lt_asymm hlt⟩
  exact List.Pairwise.eq_of_mem_iff h h' hmem

theorem has_iff {basis : Basis} : basis.has u = true ↔ ∃ e, e ∈ basis ∧ e.unknown = u := by
  simp [has]

theorem mem_insertNew {basis : Basis} (h : basis.IsSorted) :
    f ∈ basis.insertNew e ↔ f ∈ basis ∨ (f = e ∧ ∀ b ∈ basis, b.unknown ≠ e.unknown) := by
  induction basis with
  | nil => simp [insertNew]
  | cons b rest ih =>
    obtain ⟨hfirst, hrest⟩ := List.pairwise_cons.mp h
    unfold insertNew
    split
    next hlt =>
      rw [List.mem_cons, List.mem_cons, ih hrest, List.forall_mem_cons, or_assoc]
      simp [Int.ne_of_lt hlt]
    next hge =>
      split
      next heq => simp [heq]
      next hne =>
        have hnew : ∀ b' ∈ b :: rest, b'.unknown ≠ e.unknown := by
          rw [List.forall_mem_cons]
          refine ⟨hne, ?_⟩
          intro b' hb'
          have := hfirst b' hb'
          omega
        rw [List.mem_cons, or_comm]
        exact or_congr Iff.rfl ⟨fun hf => ⟨hf, hnew⟩, fun hf => hf.left⟩

theorem isSorted_insertNew {basis : Basis} (h : basis.IsSorted) (e : BasisEntry) :
    (basis.insertNew e).IsSorted := by
  induction basis with
  | nil => exact List.pairwise_singleton _ _
  | cons b rest ih =>
    obtain ⟨hfirst, hrest⟩ := List.pairwise_cons.mp h
    unfold insertNew
    split
    next hlt =>
      refine List.pairwise_cons.mpr ⟨?_, ih hrest⟩
      intro f hf
      cases (mem_insertNew hrest).mp hf with
      | inl hmem => exact hfirst f hmem
      | inr hnew => rwa [hnew.left]
    next hge =>
      split
      next heq => exact h
      next hne =>
        refine List.pairwise_cons.mpr ⟨?_, h⟩
        rw [List.forall_mem_cons]
        refine ⟨by omega, ?_⟩
        intro f hf
        have := hfirst f hf
        omega

structure IsTopmost (g : Grid m (n + 1)) (i : Fin m) (e : BasisEntry) : Prop where
  entry : ofRow? g i = some e
  first : ∀ k < i, ∀ f, ofRow? g k = some f → f.unknown ≠ e.unknown

theorem exists_isTopmost {g : Grid m (n + 1)} (i : Fin m) (h : ofRow? g i = some e) :
    ∃ k ≤ i, ∃ f, IsTopmost g k f ∧ f.unknown = e.unknown := by
  induction i using WellFoundedLT.induction generalizing e with
  | ind i ih =>
    by_cases hfirst : ∀ k < i, ∀ f, ofRow? g k = some f → f.unknown ≠ e.unknown
    . exact ⟨i, Std.le_refl i, e, ⟨h, hfirst⟩, rfl⟩
    . simp only [not_forall, not_not] at hfirst
      obtain ⟨k, hk, f, hf, hunknown⟩ := hfirst
      obtain ⟨k', hk', f', htop, hunknown'⟩ := ih k hk hf
      exact ⟨k', by omega, f', htop, by omega⟩

def upTo (g : Grid m (n + 1)) (k : Nat) : Basis :=
  ((List.finRange m).take k).foldl (addRow g) []

variable {g : Grid m (n + 1)}

theorem upTo_succ (i : Fin m) : upTo g (i + 1) = addRow g (upTo g i) i := by
  unfold upTo
  rw [List.take_succ_eq_append_getElem (by simp), List.foldl_append]
  simp

theorem upTo_length : upTo g m = ofGrid g := by
  unfold upTo ofGrid
  rw [List.take_of_length_le (by simp)]

theorem isSorted_addRow (h : IsSorted basis) (i : Fin m) : IsSorted (addRow g basis i) := by
  unfold addRow
  split
  next e hrow => exact isSorted_insertNew h e
  next => exact h

theorem mem_addRow (i : Fin m) (hsorted : (upTo g i).IsSorted)
    (hmem : ∀ e, e ∈ upTo g i ↔ ∃ k < i, IsTopmost g k e) :
    e ∈ addRow g (upTo g i) i ↔ e ∈ upTo g i ∨ IsTopmost g i e := by
  unfold addRow
  split
  next f hrow =>
    rw [mem_insertNew hsorted]
    apply or_congr Iff.rfl
    constructor
    . intro hnew
      obtain ⟨rfl, hfirst⟩ := hnew
      refine ⟨hrow, ?_⟩
      intro k hk f hf hunknown
      obtain ⟨k', hk', f', htop, hunknown'⟩ := exists_isTopmost k hf
      exact hfirst f' ((hmem f').mpr ⟨k', by omega, htop⟩) (by omega)
    . intro htop
      have heq : f = e := Option.some_injective _ (hrow.symm.trans htop.entry)
      refine ⟨heq.symm, ?_⟩
      intro b hb
      obtain ⟨k, hk, hbtop⟩ := (hmem b).mp hb
      rw [heq]
      exact htop.first k hk b hbtop.entry
  next hnone =>
    constructor
    . exact Or.inl
    . intro h
      cases h with
      | inl hmem => exact hmem
      | inr htop => exact absurd (hnone.symm.trans htop.entry) (Option.some_ne_none e).symm

theorem upTo_spec (hk : k ≤ m) :
    (upTo g k).IsSorted ∧ ∀ e, e ∈ upTo g k ↔ ∃ i : Fin m, i < k ∧ IsTopmost g i e := by
  induction k with
  | zero =>
    refine ⟨List.Pairwise.nil, ?_⟩
    intro e
    simp [upTo]
  | succ k ih =>
    obtain ⟨hsorted, hmem⟩ := ih (Nat.le_of_lt hk)
    have hsucc : upTo g (k + 1) = addRow g (upTo g k) ⟨k, hk⟩ := upTo_succ ⟨k, hk⟩
    rw [hsucc]
    refine ⟨isSorted_addRow hsorted _, ?_⟩
    intro e
    rw [mem_addRow ⟨k, hk⟩ hsorted hmem, hmem]
    constructor
    . intro h
      cases h with
      | inl hex =>
        obtain ⟨i, hi, htop⟩ := hex
        exact ⟨i, by omega, htop⟩
      | inr htop => exact ⟨⟨k, hk⟩, Nat.lt_succ_self k, htop⟩
    . intro hex
      obtain ⟨i, hi, htop⟩ := hex
      cases Nat.eq_or_lt_of_le (Nat.le_of_lt_succ hi) with
      | inl heq =>
        subst heq
        exact Or.inr htop
      | inr hlt => exact Or.inl ⟨i, hlt, htop⟩

theorem isSorted_ofGrid (g : Grid m (n + 1)) : (ofGrid g).IsSorted := by
  rw [← upTo_length]
  exact (upTo_spec (Nat.le_refl m)).left

theorem mem_ofGrid : e ∈ ofGrid g ↔ ∃ i, IsTopmost g i e := by
  rw [← upTo_length, (upTo_spec (Nat.le_refl m)).right]
  simp

theorem ofRow?_eq_some {i : Fin m} :
    ofRow? g i = some e ↔ g.duplicateOf? i = none ∧ ∃ c, Row.leading? g[i] = some c ∧ ⟨c, i, c⟩ = e := by
  unfold ofRow?
  rw [← Option.not_isSome_iff_eq_none]
  split
  next hdup => simp [hdup]
  next hdup => simp [hdup, Option.map_eq_some_iff]

end Basis

/-!
### Substitution
-/

theorem foldlM_of_step {f : α → β → Except ε α} {P : List β → α → Prop} (bs : List β)
    (hstep : ∀ done b rest, bs = done ++ b :: rest → ∀ a, P done a →
      ∃ a', f a b = .ok a' ∧ P (done ++ [b]) a')
    (hstart : P [] a) : ∃ a', bs.foldlM f a = .ok a' ∧ P bs a' := by
  suffices h : ∀ rest done a, bs = done ++ rest → P done a → ∃ a', rest.foldlM f a = .ok a' ∧ P bs a' from
    h bs [] a rfl hstart
  intro rest
  induction rest with
  | nil =>
    intro done a hbs hdone
    rw [List.append_nil] at hbs
    subst hbs
    exact ⟨a, rfl, hdone⟩
  | cons b rest ih =>
    intro done a hbs hdone
    obtain ⟨a', hok, hdone'⟩ := hstep done b rest hbs a hdone
    rw [List.foldlM_cons, hok]
    exact ih (done ++ [b]) a' (by rw [hbs, List.append_assoc]; rfl) hdone'

theorem exists_foldlM {f : α → β → Except ε α} {bs : List β} (h : ∀ a, ∀ b ∈ bs, ∃ a', f a b = .ok a') (a : α) :
    ∃ a', bs.foldlM f a = .ok a' := by
  have hfold := foldlM_of_step bs (f := f) (P := fun _ _ => True) (a := a) ?_ trivial
  . obtain ⟨a', hok, -⟩ := hfold
    exact ⟨a', hok⟩
  . intro done b rest hbs a _
    obtain ⟨a', hstep⟩ := h a b (by simp [hbs])
    exact ⟨a', hstep, trivial⟩

theorem Basis.substitute_of_place {g : Grid m (n + 1)} (basis : Basis) (x : Row n) (i : Fin m) (c : Fin n) :
    basis.substitute g x ⟨c, i, c⟩ =
      if g[i][c.castSucc].isZero then .error (.zeroBasisPivot i c)
      else .ok (x.set c (basis.reduce g[i] x c / g[i][c.castSucc]) c.isLt) := by
  have hwell : (c : Int) = c ∧ 0 ≤ (c : Int) ∧ (c : Int) < n ∧ 0 ≤ (i : Int) ∧ (i : Int) < m := by omega
  unfold substitute
  rw [dif_pos hwell]
  rfl

theorem Basis.exists_particularSolution (g : Grid m (n + 1)) :
    ∃ x, (ofGrid g).particularSolution g = .ok x := by
  apply exists_foldlM
  intro x e hmem
  obtain ⟨i, htop⟩ := mem_ofGrid.mp (List.mem_reverse.mp hmem)
  obtain ⟨-, c, hleading, rfl⟩ := ofRow?_eq_some.mp htop.entry
  obtain ⟨hpivot, -⟩ := Row.leading?_eq_some.mp hleading
  rw [substitute_of_place, hpivot]
  exact ⟨_, rfl⟩

theorem Grid.exists_backSubstitute (products : Summation) {g : Grid m (n + 1)} {h : n ≤ m}
    (hfull : g.hasFullPivots h = true) :
    ∃ x, g.backSubstitute products h = .ok x := by
  apply exists_foldlM
  intro x k _
  unfold hasFullPivots at hfull
  rw [List.all_eq_true] at hfull
  have hpivot := hfull k (List.mem_finRange k)
  rw [Bool.not_eq_true'] at hpivot
  unfold substitute
  refine ⟨_, if_neg ?_⟩
  rw [Bool.not_eq_true]
  exact hpivot

end RowSweep
