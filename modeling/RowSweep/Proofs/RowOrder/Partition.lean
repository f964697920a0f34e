import RowSweep.Proofs.RowOrder

/-!
This module contains the order in which the rows end up: those that start with zero, then the others, each group as
it came. After each row the rows up to it are in this order already, so what is reported of a move can be read off
the given grid.
-/

namespace RowSweep

namespace RowOrder

def stablePartition (rows : List (Row (n + 1))) : List (Row (n + 1)) :=
  rows.filter startsWithZero ++ rows.filter fun row => !startsWithZero row

variable {rows : List (Row (n + 1))} {row : Row (n + 1)}

theorem perm_stablePartition (rows : List (Row (n + 1))) : (stablePartition rows).Perm rows :=
  List.filter_append_perm startsWithZero rows

theorem length_stablePartition (rows : List (Row (n + 1))) : (stablePartition rows).length = rows.length :=
  (perm_stablePartition rows).length_eq

theorem stablePartition_concat_of_zero (h : startsWithZero row = true) :
    stablePartition (rows ++ [row]) =
      rows.filter startsWithZero ++ row :: rows.filter fun row => !startsWithZero row := by
  unfold stablePartition
  simp [List.filter_append, h]

theorem stablePartition_concat_of_other (h : startsWithZero row = false) :
    stablePartition (rows ++ [row]) = stablePartition rows ++ [row] := by
  unfold stablePartition
  simp [List.filter_append, h]

theorem stablePartition_idem (rows : List (Row (n + 1))) :
    stablePartition (stablePartition rows) = stablePartition rows := by
  unfold stablePartition
  simp [List.filter_append, List.filter_filter]

theorem pairwise_stablePartition (rows : List (Row (n + 1))) :
    (stablePartition rows).Pairwise fun upper lower => startsWithZero lower = true → startsWithZero upper = true := by
  unfold stablePartition
  rw [List.pairwise_append]
  refine ⟨?_, ?_, ?_⟩
  . apply List.pairwise_of_forall_mem_list
    intro upper hupper _ _ _
    exact List.of_mem_filter hupper
  . apply List.pairwise_of_forall_mem_list
    intro _ _ lower hlower hzero
    have hother := List.of_mem_filter hlower
    simp [hzero] at hother
  . intro upper hupper _ _ _
    exact List.of_mem_filter hupper

theorem startsWithZero_getElem_stablePartition {k : Nat} (hk : k < (stablePartition rows).length) :
    startsWithZero (stablePartition rows)[k] = decide (k < rows.countP startsWithZero) := by
  rw [List.countP_eq_length_filter]
  simp only [stablePartition, List.getElem_append]
  split
  next hlt =>
    rw [decide_eq_true hlt]
    exact List.of_mem_filter (List.getElem_mem hlt)
  next hge =>
    rw [decide_eq_false hge, ← Bool.not_eq_true']
    exact List.of_mem_filter (p := fun row => !startsWithZero row) (List.getElem_mem _)

theorem insertIdx_length_append (front back : List α) (a : α) :
    (front ++ back).insertIdx front.length a = front ++ a :: back := by
  induction front with
  | nil => rfl
  | cons b front ih => simp [ih]

theorem bubbleUp_final (g : Grid m (n + 1)) (i : Nat) (h : i < m) (hle : a ≤ i)
    (hzero : ∀ k (hk : k < m), k < a → startsWithZero g[k] = true)
    (hother : ∀ k (hk : k < m), a ≤ k → k < i → startsWithZero g[k] = false) : (bubbleUp g i h).2 = a := by
  -- A row goes up past the others and stops below the rows that start with zero.
  induction i generalizing g with
  | zero => exact (Nat.le_zero.mp hle).symm
  | succ i ih =>
    have hi := Nat.lt_of_succ_lt h
    unfold bubbleUp
    dsimp only
    cases Nat.eq_or_lt_of_le hle with
    | inl heq =>
      rw [if_pos (hzero i hi (by omega))]
      exact heq.symm
    | inr hlt =>
      rw [if_neg (by simp [hother i hi (by omega) (by omega)])]
      apply ih
      . omega
      . intro k hk hka
        rw [Vector.getElem_swap_of_ne (by omega) (by omega)]
        exact hzero k hk hka
      . intro k hk hak hki
        rw [Vector.getElem_swap_of_ne (by omega) (by omega)]
        exact hother k hk hak (by omega)

end RowOrder

namespace Grid

open RowOrder

def partitionedTo (g : Grid m (n + 1)) (k : Nat) : Grid m (n + 1) :=
  ⟨⟨stablePartition (g.toList.take k) ++ g.toList.drop k⟩, by
    rw [List.size_toArray, List.length_append, length_stablePartition, ← List.length_append, List.take_append_drop,
      Vector.length_toList]⟩

def zerosAbove (g : Grid m (n + 1)) (i : Fin m) : Nat :=
  (g.toList.take i).countP startsWithZero

def MovesUp (g : Grid m (n + 1)) (i : Fin m) : Prop :=
  startsWithZero g[i] = true ∧ ∃ k < i, startsWithZero g[k] = false

instance (g : Grid m (n + 1)) (i : Fin m) : Decidable (g.MovesUp i) :=
  inferInstanceAs (Decidable (_ ∧ _))

def moveOf? (g : Grid m (n + 1)) (i : Fin m) : Option (RowMove m (n + 1)) :=
  if g.MovesUp i then some ⟨i, g.zerosAbove i, g.partitionedTo (i + 1)⟩ else none

variable {g : Grid m (n + 1)}

theorem toList_partitionedTo (g : Grid m (n + 1)) (k : Nat) :
    (g.partitionedTo k).toList = stablePartition (g.toList.take k) ++ g.toList.drop k := rfl

theorem toList_partitionedTo_length (g : Grid m (n + 1)) : (g.partitionedTo m).toList = stablePartition g.toList := by
  rw [toList_partitionedTo, List.take_of_length_le (by simp), List.drop_of_length_le (by simp), List.append_nil]

theorem partitionedTo_zero (g : Grid m (n + 1)) : g.partitionedTo 0 = g := by
  rw [← Vector.toList_inj, toList_partitionedTo]
  simp [stablePartition]

theorem take_succ (i : Fin m) : g.toList.take (i + 1) = g.toList.take i ++ [g[i]] := by
  rw [List.take_succ_eq_append_getElem (by simp), Vector.getElem_toList]
  rfl

theorem drop_eq_cons (i : Fin m) : g.toList.drop i = g[i] :: g.toList.drop (i + 1) := by
  rw [List.drop_eq_getElem_cons (by simp), Vector.getElem_toList]
  rfl

theorem startsWithZero_partitionedTo (i : Fin m) {k : Nat} (hk : k < m) (hki : k < i) :
    startsWithZero (g.partitionedTo i)[k] = decide (k < g.zerosAbove i) := by
  have hlength : k < (stablePartition (g.toList.take i)).length := by
    rw [length_stablePartition, List.length_take, Vector.length_toList]
    omega
  have hrow : (g.partitionedTo i)[k] = (stablePartition (g.toList.take i))[k] := by
    rw [← Vector.getElem_toList (by simpa using hk), List.getElem_of_eq (g.toList_partitionedTo i)]
    exact List.getElem_append_left hlength
  rw [hrow]
  exact startsWithZero_getElem_stablePartition hlength

theorem getElem_partitionedTo_self (i : Fin m) : (g.partitionedTo i)[i] = g[i] := by
  have hlength : (stablePartition (g.toList.take i)).length = i := by
    rw [length_stablePartition, List.length_take, Vector.length_toList]
    omega
  show (g.partitionedTo i)[i.val] = g[i]
  rw [← Vector.getElem_toList (by simp), List.getElem_of_eq (g.toList_partitionedTo i)]
  rw [List.getElem_append_right (by omega)]
  simp only [hlength, drop_eq_cons, Nat.sub_self, List.getElem_cons_zero]

theorem zerosAbove_le (i : Fin m) : g.zerosAbove i ≤ i := by
  unfold zerosAbove
  apply Nat.le_trans List.countP_le_length
  simp

theorem zerosAbove_lt_iff (i : Fin m) : g.zerosAbove i < i ↔ ∃ k < i, startsWithZero g[k] = false := by
  have hcount := List.countP_lt_length_iff (p := startsWithZero) (l := g.toList.take i)
  rw [List.length_take, Vector.length_toList, Nat.min_eq_left (Nat.le_of_lt i.isLt)] at hcount
  unfold zerosAbove
  rw [hcount]
  constructor
  . intro hex
    obtain ⟨row, hmem, hother⟩ := hex
    obtain ⟨k, hk, rfl⟩ := List.mem_take_iff_getElem.mp hmem
    rw [Vector.length_toList] at hk
    rw [Vector.getElem_toList] at hother
    exact ⟨⟨k, by omega⟩, Fin.mk_lt_of_lt_val (by omega), hother⟩
  . intro hex
    obtain ⟨k, hk, hother⟩ := hex
    refine ⟨g[k], List.mem_take_iff_getElem.mpr ⟨k, ?_, ?_⟩, hother⟩
    . rw [Vector.length_toList]
      omega
    . rw [Vector.getElem_toList]
      rfl

theorem movesUp_iff (i : Fin m) : g.MovesUp i ↔ startsWithZero g[i] = true ∧ g.zerosAbove i < i := by
  rw [zerosAbove_lt_iff]
  rfl

theorem bubbleUp_partitionedTo (i : Fin m) (hzero : startsWithZero g[i] = true) :
    bubbleUp (g.partitionedTo i) i i.isLt = (g.partitionedTo (i + 1), g.zerosAbove i) := by
  have hfinal : (bubbleUp (g.partitionedTo i) i i.isLt).2 = g.zerosAbove i := by
    apply bubbleUp_final
    . exact g.zerosAbove_le i
    . intro k hk hlt
      rw [startsWithZero_partitionedTo i hk (Nat.lt_of_lt_of_le hlt (g.zerosAbove_le i)), decide_eq_true hlt]
    . intro k hk hle hki
      rw [startsWithZero_partitionedTo i hk hki, decide_eq_false (Nat.not_lt.mpr hle)]
  apply Prod.ext
  . have hgrid := (toList_bubbleUp (g.partitionedTo i) i i.isLt).right
    have hlength : (stablePartition (g.toList.take i)).length = i := by
      rw [length_stablePartition, List.length_take, Vector.length_toList]
      omega
    rw [← Vector.toList_inj, hgrid, hfinal, toList_partitionedTo, toList_partitionedTo, take_succ,
      stablePartition_concat_of_zero hzero, List.eraseIdx_append_of_length_le (by omega), hlength, Nat.sub_self,
      drop_eq_cons, List.eraseIdx_cons_zero]
    unfold zerosAbove stablePartition
    rw [List.countP_eq_length_filter, List.append_assoc, insertIdx_length_append, List.append_assoc, List.cons_append]
    congr 2
    exact getElem_partitionedTo_self i
  . exact hfinal

theorem zerosAbove_of_not_movesUp (i : Fin m) (h : ¬ g.MovesUp i) (hzero : startsWithZero g[i] = true) :
    g.zerosAbove i = i := by
  rw [movesUp_iff, not_and] at h
  exact Nat.le_antisymm (g.zerosAbove_le i) (Nat.not_lt.mp (h hzero))

theorem partitionedTo_succ_of_not_movesUp (i : Fin m) (h : ¬ g.MovesUp i) :
    g.partitionedTo (i + 1) = g.partitionedTo i := by
  cases hzero : startsWithZero g[i] with
  | false =>
    rw [← Vector.toList_inj, toList_partitionedTo, toList_partitionedTo, take_succ, drop_eq_cons,
      stablePartition_concat_of_other hzero, List.append_assoc, List.singleton_append]
  | true =>
    have hgrid := (toList_bubbleUp (g.partitionedTo i) i i.isLt).right
    rw [bubbleUp_partitionedTo i hzero, zerosAbove_of_not_movesUp i h hzero, insertIdx_eraseIdx] at hgrid
    exact Vector.toList_inj.mp hgrid

theorem place_partitionedTo (i : Fin m) {state : State m (n + 1)} (hgrid : state.grid = g.partitionedTo i) :
    (place state i).grid = g.partitionedTo (i + 1) ∧
      (place state i).moves.toList = state.moves.toList ++ (g.moveOf? i).toList := by
  unfold place moveOf?
  rw [hgrid, getElem_partitionedTo_self]
  by_cases hmoves : g.MovesUp i
  . obtain ⟨hzero, hlt⟩ := (movesUp_iff i).mp hmoves
    rw [if_pos hzero, if_pos hmoves, bubbleUp_partitionedTo i hzero]
    dsimp only
    rw [if_neg (by omega), Array.toList_push]
    exact ⟨rfl, rfl⟩
  . have hsame := partitionedTo_succ_of_not_movesUp i hmoves
    rw [if_neg hmoves, Option.toList_none, List.append_nil, hsame]
    split
    next hzero =>
      rw [bubbleUp_partitionedTo i hzero]
      dsimp only
      rw [if_pos (zerosAbove_of_not_movesUp i hmoves hzero)]
      exact ⟨hgrid, rfl⟩
    next => exact ⟨hgrid, rfl⟩

theorem foldl_place_take (g : Grid m (n + 1)) (k : Nat) (hk : k ≤ m) :
    let state := ((List.finRange m).take k).foldl place ⟨g, 0, #[]⟩
    state.grid = g.partitionedTo k ∧ state.moves.toList = ((List.finRange m).take k).filterMap g.moveOf? := by
  -- By induction on the rows placed so far.
  induction k with
  | zero => exact ⟨(partitionedTo_zero g).symm, rfl⟩
  | succ k ih =>
    obtain ⟨hgrid, hmoves⟩ := ih (Nat.le_of_lt hk)
    have htake : (List.finRange m).take (k + 1) = (List.finRange m).take k ++ [⟨k, hk⟩] := by
      rw [List.take_succ_eq_append_getElem (by simpa using hk), List.getElem_finRange]
      rfl
    have hplace := place_partitionedTo ⟨k, hk⟩ hgrid
    rw [htake, List.foldl_append, List.filterMap_append, ← hmoves]
    refine ⟨hplace.left, hplace.right.trans ?_⟩
    cases h : g.moveOf? ⟨k, hk⟩ with
    | none => simp [h]
    | some move => simp [h]

theorem grid_orderRows (g : Grid m (n + 1)) : g.orderRows.grid = g.partitionedTo m := by
  have hfold := (foldl_place_take g m (Nat.le_refl m)).left
  rwa [List.take_of_length_le (by simp)] at hfold

theorem moves_orderRows (g : Grid m (n + 1)) :
    g.orderRows.moves.toList = (List.finRange m).filterMap g.moveOf? := by
  have hfold := (foldl_place_take g m (Nat.le_refl m)).right
  rwa [List.take_of_length_le (by simp)] at hfold

/-!
### Inversions
-/

def inversions (g : Grid m (n + 1)) : Finset (Fin m × Fin m) :=
  Finset.univ.filter fun p => p.1 < p.2 ∧ startsWithZero g[p.1] = false ∧ startsWithZero g[p.2] = true

theorem mem_take_finRange {k : Nat} {i : Fin m} : i ∈ (List.finRange m).take k ↔ i < k := by
  rw [List.mem_take_iff_getElem]
  simp only [List.getElem_finRange, List.length_finRange]
  constructor
  . intro hex
    obtain ⟨j, hj, rfl⟩ := hex
    exact (Nat.lt_min.mp hj).left
  . intro hlt
    exact ⟨i, Nat.lt_min.mpr ⟨hlt, i.isLt⟩, rfl⟩

theorem card_othersAbove (i : Fin m) :
    (Finset.univ.filter fun k => k < i ∧ startsWithZero g[k] = false).card = i - g.zerosAbove i := by
  -- The rows that a row moves past are those above it that do not start with zero.
  let above := (List.finRange m).take i
  have hothers : (Finset.univ.filter fun k => k < i ∧ startsWithZero g[k] = false) =
      (above.filter fun k => !startsWithZero g[k]).toFinset := by
    ext k
    simp [above, mem_take_finRange]
  have hnodup : (above.filter fun k => !startsWithZero g[k]).Nodup :=
    ((List.nodup_finRange m).sublist (List.take_sublist _ _)).filter _
  have hlength : above.length = i := by simp [above]
  have hzeros : g.zerosAbove i = above.countP fun k => startsWithZero g[k] := by
    unfold zerosAbove
    rw [toList_eq_map_finRange, ← List.map_take, List.countP_map]
    rfl
  have hsplit := List.length_eq_countP_add_countP (fun k => startsWithZero g[k]) (l := above)
  rw [hothers, List.toFinset_card_of_nodup hnodup, ← List.countP_eq_length_filter]
  simp only [Bool.not_eq_true, Bool.decide_eq_false] at hsplit
  omega

theorem card_inversions_above (g : Grid m (n + 1)) (i : Fin m) :
    (Finset.univ.filter fun k => k < i ∧ startsWithZero g[k] = false ∧ startsWithZero g[i] = true).card =
      ((g.moveOf? i).map fun move => move.movedRow - move.finalRow).getD 0 := by
  unfold moveOf?
  cases hzero : startsWithZero g[i] with
  | false =>
    have hstays : ¬ g.MovesUp i := by simp [movesUp_iff, hzero]
    simp [hstays]
  | true =>
    have hothers := g.card_othersAbove i
    by_cases hmoves : g.MovesUp i
    . simp only [hmoves, ↓reduceIte, and_true, Option.map_some, Option.getD_some]
      exact hothers
    . rw [zerosAbove_of_not_movesUp i hmoves hzero, Nat.sub_self] at hothers
      simp only [hmoves, ↓reduceIte, and_true, Option.map_none, Option.getD_none]
      exact hothers

theorem sum_map_filterMap (f : α → Option β) (weight : β → Nat) (xs : List α) :
    ((xs.filterMap f).map weight).sum = (xs.map fun x => ((f x).map weight).getD 0).sum := by
  induction xs with
  | nil => rfl
  | cons x xs ih => cases h : f x <;> simp [h, ih]

theorem swaps_eq_card (g : Grid m (n + 1)) : g.orderRows.swaps = g.inversions.card := by
  rw [swaps_orderRows, moves_orderRows, sum_map_filterMap, ← Fin.sum_univ_def]
  unfold inversions
  rw [Finset.card_filter, Fintype.sum_prod_type_right]
  apply Finset.sum_congr rfl
  intro i _
  rw [← card_inversions_above, Finset.card_filter]

/-!
### Rows in order
-/

theorem not_movesUp_orderRows (g : Grid m (n + 1)) (i : Fin m) : ¬ g.orderRows.grid.MovesUp i := by
  intro hmoves
  obtain ⟨hzero, k, hk, hother⟩ := hmoves
  have hpairwise := pairwise_stablePartition g.toList
  rw [← toList_partitionedTo_length, ← grid_orderRows, List.pairwise_iff_getElem] at hpairwise
  have hupper := hpairwise k i (by simp) (by simp) hk
  rw [Vector.getElem_toList, Vector.getElem_toList] at hupper
  have htrue : startsWithZero g.orderRows.grid[k] = true := hupper hzero
  rw [htrue] at hother
  cases hother

theorem orderRows_idem (g : Grid m (n + 1)) : g.orderRows.grid.orderRows = ⟨g.orderRows.grid, 0, #[]⟩ := by
  have hmoves : g.orderRows.grid.orderRows.moves = #[] := by
    rw [← Array.toList_eq_nil_iff, moves_orderRows, List.filterMap_eq_nil_iff]
    intro i _
    exact if_neg (g.not_movesUp_orderRows i)
  have hswaps : g.orderRows.grid.orderRows.swaps = 0 := by
    rw [swaps_orderRows, hmoves]
    rfl
  have hgrid : g.orderRows.grid.orderRows.grid = g.orderRows.grid := by
    rw [← Vector.toList_inj, grid_orderRows g.orderRows.grid, toList_partitionedTo_length, grid_orderRows g,
      toList_partitionedTo_length, stablePartition_idem]
  generalize g.orderRows.grid.orderRows = state at *
  cases state
  subst hgrid hswaps hmoves
  rfl

end Grid

theorem partition_of_orderRows (g : Grid m (n + 1)) :
    g.orderRows.grid.toList = RowOrder.stablePartition g.toList ∧
    g.orderRows.swaps = g.inversions.card ∧
    g.orderRows.moves.toList = (List.finRange m).filterMap g.moveOf? ∧
    (∀ k, (g.partitionedTo k).toList = RowOrder.stablePartition (g.toList.take k) ++ g.toList.drop k) ∧
    g.orderRows.grid.orderRows = ⟨g.orderRows.grid, 0, #[]⟩ := by
  refine ⟨?_, g.swaps_eq_card, g.moves_orderRows, g.toList_partitionedTo, g.orderRows_idem⟩
  rw [Grid.grid_orderRows, Grid.toList_partitionedTo_length]

end RowSweep
