import Mathlib.Data.List.Perm.Basic
import RowSweep.Diagnostic.Order

/-!
This module contains what the order of diagnostics gives: the keys are ordered linearly, and sorting leaves those with
one key as they were. So the result depends on the order before exactly if two diagnostics share a key.
-/

namespace RowSweep

open Std

namespace PlaceKey

instance : Ord PlaceKey := ⟨PlaceKey.compare⟩

instance : TransOrd PlaceKey :=
  inferInstanceAs (TransCmp (compareLex (compareOn unplaced) (compareLex (compareOn rowless)
    (compareLex (compareOn row) (compareOn column)))))

theorem compare_eq_eq {a b : PlaceKey} : a.compare b = .eq ↔ a = b := by
  cases a
  cases b
  simp only [PlaceKey.compare, Ordering.then_eq_eq, LawfulEqOrd.compare_eq_iff_eq, mk.injEq]

theorem ofPosition_injective : Function.Injective ofPosition := by
  intro a b h
  cases a with
  | none =>
    cases b with
    | none => rfl
    | some q =>
      cases q with
      | mk row column placed => cases row <;> simp [ofPosition] at h
  | some p =>
    cases p with
    | mk row column placed =>
      cases b with
      | none => cases row <;> simp [ofPosition] at h
      | some q =>
        cases q with
        | mk row' column' placed' =>
          cases row <;> cases row' <;> cases column <;> cases column' <;> simp [ofPosition] at h ⊢ <;> omega

end PlaceKey

namespace DiagnosticKey

instance : TransCmp DiagnosticKey.compare :=
  inferInstanceAs (TransCmp (compareLex (compareOn severity) (compareLex (compareOn stage)
    (compareLex (compareOn place) (compareLex (compareOn code) (compareLex (compareOn source)
      (compareLex (compareOn message) (compareOn witness))))))))

theorem compare_eq_eq {a b : DiagnosticKey} : a.compare b = .eq ↔ a = b := by
  cases a
  cases b
  simp only [DiagnosticKey.compare, Ordering.then_eq_eq, LawfulEqOrd.compare_eq_iff_eq, PlaceKey.compare_eq_eq,
    mk.injEq]

end DiagnosticKey

namespace Diagnostic

variable {ds ds' : List Diagnostic} {a b c : Diagnostic}

theorem le_trans (a b c : Diagnostic) (hab : le a b = true) (hbc : le b c = true) : le a c = true :=
  TransCmp.isLE_trans hab hbc

theorem le_total (a b : Diagnostic) : (le a b || le b a) = true := by
  have hswap : b.key.compare a.key = (a.key.compare b.key).swap := OrientedCmp.eq_swap
  unfold le
  rw [hswap]
  cases a.key.compare b.key <;> rfl

theorem key_eq_of_le (hab : le a b = true) (hba : le b a = true) : a.key = b.key :=
  DiagnosticKey.compare_eq_eq.mp (OrientedCmp.isLE_antisymm hab hba)

theorem le_of_key_eq (h : a.key = b.key) : le a b = true := by
  unfold le
  rw [h]
  exact ReflCmp.isLE_rfl

theorem perm_sort (ds : List Diagnostic) : (sort ds).Perm ds :=
  List.mergeSort_perm ds le

theorem pairwise_sort (ds : List Diagnostic) : (sort ds).Pairwise fun a b => le a b = true :=
  List.pairwise_mergeSort le_trans le_total ds

theorem filter_key_sort (ds : List Diagnostic) (key : DiagnosticKey) :
    (sort ds).filter (·.key = key) = ds.filter (·.key = key) := by
  have hpairwise : (ds.filter (·.key = key)).Pairwise fun a b => le a b = true := by
    apply List.pairwise_of_forall_mem_list
    intro a ha b hb
    simp only [List.mem_filter, decide_eq_true_eq] at ha hb
    exact le_of_key_eq (ha.right.trans hb.right.symm)
  have hsublist : (ds.filter (·.key = key)).Sublist (sort ds) :=
    List.sublist_mergeSort le_trans le_total hpairwise List.filter_sublist
  have hfiltered := hsublist.filter (·.key = key)
  rw [List.filter_filter] at hfiltered
  have hlength := ((perm_sort ds).filter (·.key = key)).length_eq
  symm
  apply List.Sublist.eq_of_length
  . simpa using hfiltered
  . exact hlength.symm

theorem map_order (ds : List Diagnostic) : (order ds).map (ds[·]?) = (sort ds).map some := by
  have hsort : (ds.zipIdx.mergeSort fun a b => a.1.le b.1).map Prod.fst = sort ds := by
    have hmap := List.map_mergeSort (r := fun a b : Diagnostic × Nat => a.1.le b.1) (s := le) (f := Prod.fst)
      (l := ds.zipIdx) (fun _ _ _ _ => rfl)
    rw [hmap, List.zipIdx_map_fst]
    rfl
  unfold order
  rw [← hsort, List.map_map, List.map_map]
  apply List.map_congr_left
  intro entry hmem
  exact List.mem_zipIdx_iff_getElem?.mp (List.mem_mergeSort.mp hmem)

theorem sort_eq_of_perm (hperm : ds.Perm ds') (hkeys : ∀ a ∈ ds, ∀ b ∈ ds, a.key = b.key → a = b) :
    sort ds = sort ds' := by
  apply List.Perm.eq_of_pairwise _ (pairwise_sort ds) (pairwise_sort ds')
  . exact (perm_sort ds).trans (hperm.trans (perm_sort ds').symm)
  . intro a b ha hb hab hba
    have ha := (perm_sort ds).mem_iff.mp ha
    have hb := hperm.mem_iff.mpr ((perm_sort ds').mem_iff.mp hb)
    exact hkeys a ha b hb (key_eq_of_le hab hba)

open Classical in
theorem eq_of_sort_eq (hsort : ∀ ds', ds'.Perm ds → sort ds' = sort ds) (ha : a ∈ ds) (hb : b ∈ ds)
    (hkey : a.key = b.key) : a = b := by
  -- If two diagnostics share a key, then whichever of them is moved to the front comes first of all with this
  -- key.
  have hfront := hsort _ (List.perm_cons_erase ha).symm
  have hfront' := hsort _ (List.perm_cons_erase hb).symm
  have hfilter := congrArg (List.filter (·.key = b.key)) (hfront.trans hfront'.symm)
  rw [filter_key_sort, filter_key_sort, List.filter_cons_of_pos (by simpa using hkey),
    List.filter_cons_of_pos (by simp)] at hfilter
  exact List.head_eq_of_cons_eq hfilter

theorem forall_sort_eq_iff_key (ds : List Diagnostic) :
    (∀ ds', ds'.Perm ds → sort ds' = sort ds) ↔ ∀ a ∈ ds, ∀ b ∈ ds, a.key = b.key → a = b := by
  constructor
  . intro hsort a ha b hb hkey
    exact eq_of_sort_eq hsort ha hb hkey
  . intro hkeys ds' hperm
    exact (sort_eq_of_perm hperm.symm hkeys).symm

end Diagnostic

end RowSweep
