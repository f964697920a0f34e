import Mathlib
import RowSweep.RowOrder

/-!
This module contains what the ordering of rows keeps: it has the same rows, so whatever holds of each row
holds of each row afterwards. The rows that it reports as moved are those that it took out and put in higher up.
-/

namespace RowSweep

namespace RowOrder

theorem perm_bubbleUp (g : Grid m (n + 1)) (i : Nat) (h : i < m) : (bubbleUp g i h).1.Perm g := by
  induction i generalizing g with
  | zero => exact Vector.Perm.rfl
  | succ i ih =>
    unfold bubbleUp
    dsimp only
    split
    . exact Vector.Perm.rfl
    . exact (ih _ _).trans (Vector.swap_perm _ _)

theorem perm_place (state : State m (n + 1)) (i : Fin m) : (place state i).grid.Perm state.grid := by
  unfold place
  split
  . dsimp only
    split
    . exact Vector.Perm.rfl
    . exact perm_bubbleUp _ _ _
  . exact Vector.Perm.rfl

theorem perm_foldl_place (rows : List (Fin m)) (state : State m (n + 1)) :
    (rows.foldl place state).grid.Perm state.grid := by
  induction rows generalizing state with
  | nil => exact Vector.Perm.rfl
  | cons i rows ih => exact (ih _).trans (perm_place state i)

end RowOrder

structure RowMove.Follows (g : Grid m n) (move : RowMove m n) : Prop where
  lt : move.movedRow < m
  above : move.finalRow < move.movedRow
  grid_eq : move.grid.toList = (g.toList.eraseIdx move.movedRow).insertIdx move.finalRow g[move.movedRow]

namespace RowOrder

theorem eraseIdx_swap (g : Grid m n) (i : Nat) (h : i + 1 < m) :
    (g.swap i (i + 1)).toList.eraseIdx i = g.toList.eraseIdx (i + 1) := by
  apply List.ext_getElem
  . simp only [List.length_eraseIdx, Vector.length_toList]
    rw [if_pos (Nat.lt_of_succ_lt h), if_pos h]
  . intro j hj hj'
    simp only [List.getElem_eraseIdx, Vector.getElem_toList, Vector.getElem_swap]
    grind

theorem insertIdx_eraseIdx (g : Grid m n) (i : Nat) (h : i < m) :
    (g.toList.eraseIdx i).insertIdx i g[i] = g.toList := by
  rw [← Vector.getElem_toList (by simpa using h)]
  apply List.insertIdx_eraseIdx_getElem

theorem toList_bubbleUp (g : Grid m (n + 1)) (i : Nat) (h : i < m) :
    (bubbleUp g i h).2 ≤ i ∧
      (bubbleUp g i h).1.toList = (g.toList.eraseIdx i).insertIdx (bubbleUp g i h).2 g[i] := by
  induction i generalizing g with
  | zero => exact ⟨Nat.le_refl 0, (insertIdx_eraseIdx g 0 h).symm⟩
  | succ i ih =>
    unfold bubbleUp
    dsimp only
    split
    next => exact ⟨Nat.le_refl _, (insertIdx_eraseIdx g (i + 1) h).symm⟩
    next =>
      have ih := ih (g.swap i (i + 1)) (Nat.lt_of_succ_lt h)
      rw [eraseIdx_swap, Vector.getElem_swap_left] at ih
      exact ⟨Nat.le_succ_of_le ih.left, ih.right⟩

inductive Placed (state : State m (n + 1)) : State m (n + 1) → Prop where
  | stays : Placed state state
  | moves {move : RowMove m (n + 1)} (follows : move.Follows state.grid) :
      Placed state ⟨move.grid, state.swaps + (move.movedRow - move.finalRow), state.moves.push move⟩

theorem placed_place (state : State m (n + 1)) (i : Fin m) : Placed state (place state i) := by
  unfold place
  split
  next =>
    have hbubble := toList_bubbleUp state.grid i i.isLt
    dsimp only
    split
    next => exact Placed.stays
    next hmoved =>
      let move : RowMove m (n + 1) := ⟨i, (bubbleUp state.grid i i.isLt).2, (bubbleUp state.grid i i.isLt).1⟩
      have follows : move.Follows state.grid := ⟨i.isLt, Nat.lt_of_le_of_ne hbubble.left hmoved, hbubble.right⟩
      exact Placed.moves follows
  next => exact Placed.stays

end RowOrder

namespace Grid

theorem orderRows_of_placed {g : Grid m (n + 1)} {P : RowOrder.State m (n + 1) → Prop} (hstart : P ⟨g, 0, #[]⟩)
    (hplaced : ∀ state state', RowOrder.Placed state state' → P state → P state') : P g.orderRows := by
  unfold orderRows
  generalize (⟨g, 0, #[]⟩ : RowOrder.State m (n + 1)) = state at hstart ⊢
  generalize List.finRange m = rows
  induction rows generalizing state with
  | nil => exact hstart
  | cons i rows ih => exact ih _ (hplaced _ _ (RowOrder.placed_place state i) hstart)

theorem swaps_orderRows (g : Grid m (n + 1)) :
    g.orderRows.swaps = (g.orderRows.moves.toList.map fun move => move.movedRow - move.finalRow).sum := by
  apply orderRows_of_placed (P := fun state =>
    state.swaps = (state.moves.toList.map fun move => move.movedRow - move.finalRow).sum)
  case hstart => simp
  case hplaced =>
    intro state state' placed hswaps
    cases placed with
    | stays => exact hswaps
    | moves follows => simp [hswaps]

theorem lt_of_mem_moves (g : Grid m (n + 1)) :
    ∀ move ∈ g.orderRows.moves.toList, move.finalRow < move.movedRow ∧ move.movedRow < m := by
  apply orderRows_of_placed (P := fun state =>
    ∀ move ∈ state.moves.toList, move.finalRow < move.movedRow ∧ move.movedRow < m)
  case hstart => simp
  case hplaced =>
    intro state state' placed hmoves
    cases placed with
    | stays => exact hmoves
    | moves follows =>
      intro move hmem
      rw [Array.toList_push] at hmem
      cases List.mem_append.mp hmem with
      | inl hmem => exact hmoves move hmem
      | inr heq =>
        rw [List.mem_singleton.mp heq]
        exact ⟨follows.above, follows.lt⟩

theorem perm_orderRows (g : Grid m (n + 1)) : g.orderRows.grid.Perm g :=
  RowOrder.perm_foldl_place _ _

theorem isConsistent_orderRows (g : Grid m (n + 1)) : g.orderRows.grid.isConsistent = g.isConsistent := by
  unfold isConsistent
  rw [Bool.eq_iff_iff, Vector.all_eq_true', Vector.all_eq_true']
  have hperm := g.perm_orderRows
  constructor
  . intro hall row hrow
    exact hall row (hperm.mem_iff.mpr hrow)
  . intro hall row hrow
    exact hall row (hperm.mem_iff.mp hrow)

theorem forall_row_of_perm {g g' : Grid m n} {P : Row n → Prop} (h : g.Perm g')
    (hrow : ∀ i : Fin m, P g[i]) (i : Fin m) : P g'[i] := by
  have hmem : g'[i] ∈ g := h.mem_iff.mpr (by simp [getElem_fin])
  obtain ⟨k, hk, heq⟩ := Vector.getElem_of_mem hmem
  rw [← heq]
  exact hrow ⟨k, hk⟩

end Grid

end RowSweep
