import RowSweep.Numerics
import RowSweep.Proofs.Multipliers.Exact

/-!
This module contains what holds of a sum in whatever order its terms are added up: integers are added without
rounding, magnitudes give a magnitude, and integers of the exact range do not overflow.
-/

namespace RowSweep

open Binary64

attribute [local irreducible] unitsPerOne rangeEnd

namespace Binary64

theorem roundUnits_saturated (k : Nat) : roundUnits ((2 ^ 107 + 2 ^ 53) * 2 ^ k) 1 = 2 ^ 107 * 2 ^ k := by
  have hpos := Nat.two_pow_pos k
  have hlog : ((2 ^ 107 + 2 ^ 53) * 2 ^ k).log2 = 107 + k := by
    have hne : (2 ^ 107 + 2 ^ 53) * 2 ^ k ≠ 0 := Nat.mul_ne_zero (by decide) (by omega)
    rw [Nat.log2_eq_iff hne, Nat.add_right_comm 107 k 1, Nat.pow_add, Nat.pow_add]
    exact ⟨Nat.mul_le_mul_right _ (by decide), Nat.mul_lt_mul_of_pos_right (by decide) hpos⟩
  have hspare : spareBits ((2 ^ 107 + 2 ^ 53) * 2 ^ k) = 55 + k := by
    unfold spareBits
    omega
  have hnearest : nearest ((2 ^ 107 + 2 ^ 53) * 2 ^ k) (1 * 2 ^ (55 + k)) = 2 ^ 52 := by
    apply nearest_eq_of_error_lt <;> rw [Nat.pow_add] <;> omega
  unfold roundUnits
  dsimp only
  rw [Nat.div_one, hspare, hnearest, Nat.pow_add, ← Nat.mul_assoc, ← Nat.pow_add]

theorem within_add_saturated (hx : Within (2 ^ 107 * unitsPerOne) x) (hy : Within (2 ^ 53 * unitsPerOne) y) :
    Within (2 ^ 107 * unitsPerOne) (x + y) := by
  -- From `2 ^ 107` on a sum does not grow any more by terms of at most `2 ^ 53`.
  obtain ⟨e, he⟩ : ∃ e, e = 1074 := ⟨_, rfl⟩
  have hunits := unitsPerOne_eq he
  have hsum : (x.units + y.units).natAbs ≤ (2 ^ 107 + 2 ^ 53) * 2 ^ e := by
    have hxle := hx.magnitude_le
    have hyle := hy.magnitude_le
    unfold magnitude at hxle hyle
    rw [hunits] at hxle hyle
    omega
  have hround := roundUnits_mono (d := 1) (by decide) hsum
  rw [roundUnits_saturated e] at hround
  have hlt : 2 ^ 107 * 2 ^ e < rangeEnd := by
    rw [← Nat.pow_add]
    exact two_pow_lt_rangeEnd (by omega)
  have hadd := add_spec hx.isFinite hy.isFinite (Nat.lt_of_le_of_lt hround hlt)
  refine ⟨hadd.left, ?_⟩
  rw [magnitude, hadd.right, natAbs_signed, hunits]
  exact hround

theorem IsUnsigned.abs_eq (h : IsUnsigned x) : x.abs = x := by
  obtain ⟨u, hu, rfl⟩ := h
  rfl

theorem abs_add_abs {x y : Binary64} (hx : x.abs = x) : (x + y.abs).abs = x + y.abs := by
  cases x with
  | nan => rfl
  | infinite s =>
    cases s with
    | true => cases hx
    | false => cases y <;> rfl
  | finite s u hu =>
    cases y with
    | nan => rfl
    | infinite t => rfl
    | finite t v hv =>
      rw [← hx]
      cases add_unsigned (isUnsigned_abs (x := finite s u hu) rfl) (isUnsigned_abs (x := finite t v hv) rfl) with
      | inl hsum => exact hsum.abs_eq
      | inr hsum =>
        rw [hsum]
        rfl

end Binary64

inductive SumsTo : Multiset Binary64 → Binary64 → Prop where
  | none : SumsTo 0 .zero
  | single (x : Binary64) : SumsTo {x} x
  | add (hx : SumsTo s x) (hy : SumsTo t y) : SumsTo (s + t) (x + y)

def Summation.AddsUp (sum : Summation) : Prop :=
  ∀ terms : List Binary64, SumsTo terms (sum terms)

/--
Whether `n` terms of the exact range do not overflow. Up to `2 ^ 53` of them do not, however they are added up.
-/
def Summation.StaysFinite (sum : Summation) (n : Nat) : Prop :=
  ∀ terms : List Binary64, terms.length = n → (∀ x ∈ terms, Within (2 ^ 53 * unitsPerOne) x) →
    (sum terms).isFinite = true

namespace SumsTo

theorem forall_of_forall_add {P : Binary64 → Prop} {s t : Multiset Binary64} (h : ∀ z ∈ s + t, P z) :
    (∀ z ∈ s, P z) ∧ ∀ z ∈ t, P z :=
  ⟨fun z hz => h z (Multiset.mem_add.mpr (Or.inl hz)), fun z hz => h z (Multiset.mem_add.mpr (Or.inr hz))⟩

theorem natAbs_sum_toInt_le (s : Multiset Binary64) :
    (s.map toInt).sum.natAbs ≤ (s.map fun y => y.toInt.natAbs).sum := by
  induction s using Multiset.induction with
  | empty => exact Nat.le_refl 0
  | cons x s ih =>
    simp only [Multiset.map_cons, Multiset.sum_cons]
    omega

theorem foldl (h : SumsTo s x) (terms : List Binary64) : SumsTo (s + terms) (terms.foldl (· + ·) x) := by
  induction terms generalizing s x with
  | nil => simpa using h
  | cons y terms ih =>
    have hnext := ih (h.add (single y))
    rwa [add_assoc, Multiset.singleton_add, Multiset.cons_coe] at hnext

theorem eq_zero (h : SumsTo s x) (hs : s = 0) : x = .zero := by
  induction h with
  | none => rfl
  | single x => exact absurd hs (Multiset.singleton_ne_zero x)
  | add hx hy ihx ihy =>
    obtain ⟨rfl, rfl⟩ := add_eq_zero.mp hs
    rw [ihx rfl, ihy rfl]
    rfl

theorem integer? (h : SumsTo s x) (hwhole : ∀ y ∈ s, y.integer? = some y.toInt)
    (hle : (s.map fun y => y.toInt.natAbs).sum ≤ 2 ^ 53) : x.integer? = some (s.map toInt).sum := by
  induction h with
  | none => exact integer?_of_isZero isZero_zero
  | single x => simpa using hwhole x
  | @add s x t y hx hy ihx ihy =>
    obtain ⟨hleft, hright⟩ := forall_of_forall_add hwhole
    have hs := natAbs_sum_toInt_le s
    have ht := natAbs_sum_toInt_le t
    rw [Multiset.map_add, Multiset.sum_add] at hle ⊢
    exact integer?_add (ihx hleft (by omega)) (ihy hright (by omega)) (by omega)

theorem within (h : SumsTo s x) (hterms : ∀ y ∈ s, Within (2 ^ 53 * unitsPerOne) y) (hs : s.card ≤ 2 ^ 53) :
    Within (s.card * 2 ^ 53 * unitsPerOne) x := by
  -- Up to `2 ^ 53` terms the bound of a sum is itself a value, so that rounding does not take a sum beyond it.
  induction h with
  | none => exact within_zero _
  | single x => simpa using hterms x
  | @add s x t y hx hy ihx ihy =>
    obtain ⟨hleft, hright⟩ := forall_of_forall_add hterms
    rw [Multiset.card_add] at hs ⊢
    have hxs := ihx hleft (by omega)
    have hyt := ihy hright (by omega)
    refine within_add ?_ hxs.isFinite hyt.isFinite ?_
    . obtain ⟨e, he⟩ : ∃ e, e = 1074 := ⟨_, rfl⟩
      rw [unitsPerOne_eq he, Nat.mul_assoc, ← Nat.pow_add]
      apply fits_of_dvd (spareBits_dvd_mul_two_pow hs _)
      refine Nat.lt_of_le_of_lt (Nat.mul_le_mul_right _ hs) ?_
      rw [← Nat.pow_add]
      exact two_pow_lt_rangeEnd (by omega)
    . rw [Nat.add_mul, Nat.add_mul]
      exact Nat.add_le_add hxs.magnitude_le hyt.magnitude_le

theorem abs_eq (h : SumsTo s x) (hterms : ∀ y ∈ s, y.abs = y) : x.abs = x := by
  induction h with
  | none => rfl
  | single x => exact hterms x (Multiset.mem_singleton_self x)
  | @add s x t y hx hy ihx ihy =>
    obtain ⟨hleft, hright⟩ := forall_of_forall_add hterms
    rw [← ihy hright]
    exact abs_add_abs (ihx hleft)

end SumsTo

namespace Summation

theorem addsUp_inOrder : AddsUp inOrder := by
  intro terms
  have hfold := SumsTo.none.foldl terms
  rwa [zero_add] at hfold

theorem sumsTo_addLanes (ha : SumsTo sa a) (hb : SumsTo sb b) (hc : SumsTo sc c) (hd : SumsTo sd d)
    (he : SumsTo se e) (hf : SumsTo sf f) (hg : SumsTo sg g) (hh : SumsTo sh h) (terms : List Binary64) :
    SumsTo (sa + sb + (sc + sd) + (se + sf + (sg + sh)) + terms) (addLanes a b c d e f g h terms) := by
  fun_induction addLanes a b c d e f g h terms generalizing sa sb sc sd se sf sg sh with
  | case1 a b c d e f g h p q r s t u v w rest ih =>
    have hnext := ih (ha.add (.single p)) (hb.add (.single q)) (hc.add (.single r)) (hd.add (.single s))
      (he.add (.single t)) (hf.add (.single u)) (hg.add (.single v)) (hh.add (.single w))
    convert hnext using 1
    simp only [← Multiset.cons_coe, ← Multiset.singleton_add]
    abel
  | case2 a b c d e f g h rest _ => exact (((ha.add hb).add (hc.add hd)).add ((he.add hf).add (hg.add hh))).foldl rest

theorem addsUp_ofBlock : AddsUp ofBlock := by
  intro terms
  unfold ofBlock
  split
  next a b c d e f g h rest =>
    have hlanes := sumsTo_addLanes (.single a) (.single b) (.single c) (.single d) (.single e) (.single f)
      (.single g) (.single h) rest
    convert hlanes using 1
    simp only [← Multiset.cons_coe, ← Multiset.singleton_add]
    abel
  next => exact addsUp_inOrder terms

theorem addsUp_pairwise : AddsUp pairwise := by
  intro terms
  fun_induction pairwise terms with
  | case1 terms _ => exact addsUp_ofBlock terms
  | case2 terms _ half cut ihtake ihdrop =>
    have hsum := ihtake.add ihdrop
    rwa [Multiset.coe_add, List.take_append_drop] at hsum

theorem AddsUp.integer?_map {sum : Summation} (h : sum.AddsUp) {as : List α} {f : α → Binary64} {term : α → Int}
    (hterm : ∀ a ∈ as, (f a).integer? = some (term a)) (hle : (as.map fun a => (term a).natAbs).sum ≤ 2 ^ 53) :
    (sum (as.map f)).integer? = some (as.map term).sum := by
  have hmap : ∀ {β : Type} (g : Int → β), (as.map f).map (fun y => g y.toInt) = as.map fun a => g (term a) := by
    intro β g
    rw [List.map_map]
    apply List.map_congr_left
    intro a ha
    rw [Function.comp_apply, toInt_of_integer? (hterm a ha)]
  rw [(h (as.map f)).integer? ?_ ?_]
  . exact congrArg (fun terms => some (List.sum terms)) (hmap id)
  . intro y hy
    obtain ⟨a, ha, rfl⟩ := List.mem_map.mp (Multiset.mem_coe.mp hy)
    exact integer?_toInt (by rw [hterm a ha]; rfl)
  . rwa [Multiset.map_coe, Multiset.sum_coe, hmap Int.natAbs]

theorem staysFinite_inOrder (n : Nat) : StaysFinite inOrder n := by
  intro terms _ hterms
  have hfold : ∀ (terms : List Binary64) (sum : Binary64), (∀ x ∈ terms, Within (2 ^ 53 * unitsPerOne) x) →
      Within (2 ^ 107 * unitsPerOne) sum → Within (2 ^ 107 * unitsPerOne) (terms.foldl (· + ·) sum) := by
    intro terms
    induction terms with
    | nil => exact fun sum _ hsum => hsum
    | cons x terms ih =>
      intro sum hterms hsum
      rw [List.forall_mem_cons] at hterms
      exact ih (sum + x) hterms.right (within_add_saturated hsum hterms.left)
  exact (hfold terms .zero hterms (within_zero _)).isFinite

theorem AddsUp.staysFinite {sum : Summation} (h : sum.AddsUp) (hn : n ≤ 2 ^ 53) : sum.StaysFinite n := by
  intro terms hlength hterms
  exact ((h terms).within hterms (by simpa [hlength] using hn)).isFinite

end Summation

end RowSweep
