import RowSweep.LinearSystem
import RowSweep.Proofs.Binary64.Range
import RowSweep.Proofs.Except

/-!
This module contains which documents are arrangements of numbers: the lists in them have one length at each depth, and
all that is in the innermost ones stands for numbers. The grids among them are lists of rows.
-/

namespace RowSweep

namespace Document

mutual

def leaves : Document → List Document
  | .sequence items => itemLeaves items
  | document => [document]

def itemLeaves : List Document → List Document
  | [] => []
  | item :: rest => leaves item ++ itemLeaves rest

end

def Holds (document : Document) (g : Grid m n) : Prop :=
  ∃ rows : List (List Document), document = .sequence (rows.map .sequence) ∧
    List.Forall₂ (fun entries row => List.Forall₂ (fun entry x => NumberArray.leaf? entry = .ok x) entries row.toList)
      rows g.toList

end Document

theorem getElem?_flatten_of_length {lists : List (List α)} (h : ∀ list ∈ lists, list.length = n) (hj : j < n)
    (i : Nat) : lists.flatten[i * n + j]? = lists[i]?.bind (·[j]?) := by
  induction lists generalizing i with
  | nil => simp
  | cons list rest ih =>
    rw [List.forall_mem_cons] at h
    rw [List.flatten_cons]
    cases i with
    | zero =>
      rw [Nat.zero_mul, Nat.zero_add, List.getElem?_append_left (by omega)]
      rfl
    | succ i =>
      rw [Nat.succ_mul, List.getElem?_append_right (by omega), h.left]
      rw [Nat.add_right_comm, Nat.add_sub_cancel]
      exact ih h.right i

namespace NumberArray

open Document (leaves itemLeaves)

variable {document : Document} {rows : List (List Document)} {g : Grid m n} {a : NumberArray}

theorem leaf?_eq_outOfRange_iff :
    leaf? document = .error .outOfRange ↔ ∃ i, document = .integer i ∧ Binary64.integerRangeEnd ≤ i.natAbs := by
  cases document with
  | integer i =>
    have hrange := Binary64.isFinite_ofInt_iff i
    rw [leaf?]
    split
    next hfinite =>
      have hlt := hrange.mp hfinite
      simp [hlt]
    next hinfinite =>
      have hle := Nat.not_lt.mp (fun hlt => hinfinite (hrange.mpr hlt))
      simp [hle]
  | text s =>
    rw [leaf?]
    split <;> simp
  | foreign s =>
    rw [leaf?]
    split <;> simp
  | _ => simp [leaf?]

/-!
### Numbers from left to right
-/

mutual

theorem cells?_eq (document : Document) : cells? document = (leaves document).mapM leaf? := by
  cases document with
  | sequence items =>
    rw [cells?, leaves]
    exact itemCells?_eq items
  | _ =>
    simp only [cells?, leaves, List.mapM_cons, List.mapM_nil]
    cases leaf? _ <;> rfl

theorem itemCells?_eq (items : List Document) : itemCells? items = (itemLeaves items).mapM leaf? := by
  cases items with
  | nil => rfl
  | cons item rest => rw [itemCells?, itemLeaves, List.mapM_append, cells?_eq item, itemCells?_eq rest]

end

theorem leaves_of_hasShape (h : hasShape [] document = true) : leaves document = [document] := by
  cases document with
  | sequence items => cases h
  | _ => rfl

theorem itemLeaves_of_hasShape {entries : List Document} (h : ∀ entry ∈ entries, hasShape [] entry = true) :
    itemLeaves entries = entries := by
  induction entries with
  | nil => rfl
  | cons entry rest ih =>
    rw [List.forall_mem_cons] at h
    rw [itemLeaves, leaves_of_hasShape h.left, ih h.right]
    rfl

theorem leaves_of_rows (h : ∀ row ∈ rows, ∀ entry ∈ row, hasShape [] entry = true) :
    leaves (.sequence (rows.map .sequence)) = rows.flatten := by
  rw [leaves]
  induction rows with
  | nil => rfl
  | cons row rest ih =>
    rw [List.forall_mem_cons] at h
    rw [List.map_cons, itemLeaves, leaves, itemLeaves_of_hasShape h.left, ih h.right, List.flatten_cons]

/-!
### Two dimensions
-/

theorem hasShape_of_leaf? (h : leaf? document = .ok x) : hasShape [] document = true := by
  cases document with
  | sequence items => cases h
  | _ => rfl

theorem hasShape_singleton_iff : hasShape [n] document = true ↔
    ∃ entries, document = .sequence entries ∧ entries.length = n ∧ ∀ entry ∈ entries, hasShape [] entry = true := by
  cases document with
  | sequence items => simp [hasShape]
  | _ => simp [hasShape]

theorem hasShape_pair_iff : hasShape [m, n] document = true ↔
    ∃ rows : List (List Document), document = .sequence (rows.map .sequence) ∧ rows.length = m ∧
      ∀ row ∈ rows, row.length = n ∧ ∀ entry ∈ row, hasShape [] entry = true := by
  cases document with
  | sequence items =>
    have hlists : (∀ item ∈ items, hasShape [n] item = true) ↔ ∃ rows : List (List Document),
        items = rows.map .sequence ∧ ∀ row ∈ rows, row.length = n ∧ ∀ entry ∈ row, hasShape [] entry = true := by
      simp only [hasShape_singleton_iff]
      constructor
      . intro h
        induction items with
        | nil => exact ⟨[], rfl, nofun⟩
        | cons item rest ih =>
          rw [List.forall_mem_cons] at h
          obtain ⟨⟨row, rfl, hrow⟩, hrest⟩ := h
          obtain ⟨rows, rfl, hrows⟩ := ih hrest
          exact ⟨row :: rows, rfl, List.forall_mem_cons.mpr ⟨hrow, hrows⟩⟩
      . intro h
        obtain ⟨rows, rfl, hrows⟩ := h
        rw [List.forall_mem_map]
        intro row hrow
        exact ⟨row, rfl, hrows row hrow⟩
    rw [hasShape, Bool.and_eq_true, beq_iff_eq, List.all_eq_true, hlists]
    constructor
    . intro h
      obtain ⟨hlength, rows, rfl, hrows⟩ := h
      exact ⟨rows, rfl, by simpa using hlength, hrows⟩
    . intro h
      obtain ⟨rows, heq, hlength, hrows⟩ := h
      cases heq
      exact ⟨by simpa using hlength, rows, rfl, hrows⟩
  | _ => simp [hasShape]

theorem leadingShape_of_rows (hrows : rows ≠ [])
    (h : ∀ row ∈ rows, row.length = n ∧ ∀ entry ∈ row, hasShape [] entry = true) :
    leadingShape (.sequence (rows.map .sequence)) = [rows.length, n] := by
  cases rows with
  | nil => exact absurd rfl hrows
  | cons row rest =>
    rw [List.forall_mem_cons] at h
    obtain ⟨⟨hlength, hentries⟩, -⟩ := h
    rw [List.map_cons, leadingShape, List.length_map, List.length_cons, ← hlength]
    cases row with
    | nil => rfl
    | cons entry entries =>
      rw [List.forall_mem_cons] at hentries
      rw [leadingShape, List.length_cons]
      cases entry with
      | sequence items => cases hentries.left
      | _ => rfl

theorem shape?_of_rows (hrows : rows ≠ [])
    (h : ∀ row ∈ rows, row.length = n ∧ ∀ entry ∈ row, hasShape [] entry = true) :
    shape? (.sequence (rows.map .sequence)) = some [rows.length, n] := by
  have hshape : hasShape [rows.length, n] (.sequence (rows.map .sequence)) = true :=
    hasShape_pair_iff.mpr ⟨rows, rfl, rfl, h⟩
  unfold shape?
  dsimp only
  rw [leadingShape_of_rows hrows h, hshape]
  rfl

theorem hasShape_of_shape? {shape : List Nat} (h : shape? document = some shape) : hasShape shape document = true := by
  unfold shape? at h
  dsimp only at h
  split at h
  next hshape =>
    cases h
    rw [Bool.and_eq_true] at hshape
    exact hshape.right
  next => cases h

theorem getElem_toGrid (a : NumberArray) (i : Fin m) (j : Fin n) :
    (a.toGrid m n)[i][j] = (a.cells[i * n + j]?).getD .nan := by
  simp [toGrid, getElem_fin, Array.getD_eq_getD_getElem?]

theorem ofDocument_eq_ok_iff :
    ofDocument document = .ok a ↔
      shape? document = some a.shape ∧ List.Forall₂ (fun entry x => leaf? entry = .ok x) (leaves document) a.cells := by
  rw [← mapM_eq_ok_iff, ← cells?_eq]
  unfold ofDocument
  cases shape? document with
  | none => simp
  | some shape =>
    simp only [map_eq_ok_iff, Option.some.injEq]
    constructor
    . intro h
      obtain ⟨cells, hcells, rfl⟩ := h
      exact ⟨rfl, hcells⟩
    . intro h
      obtain ⟨rfl, hcells⟩ := h
      exact ⟨a.cells, hcells, rfl⟩

theorem ofDocument_eq_outOfRange_iff :
    ofDocument document = .error .outOfRange ↔
      (∃ shape, shape? document = some shape) ∧ (leaves document).mapM leaf? = .error .outOfRange := by
  rw [← cells?_eq]
  unfold ofDocument
  cases shape? document with
  | none => simp
  | some shape => cases cells? document <;> simp [Except.map]

theorem holds_toGrid (h : ofDocument document = .ok a) (hshape : a.shape = [m, n]) :
    document.Holds (a.toGrid m n) := by
  rw [ofDocument_eq_ok_iff, hshape] at h
  obtain ⟨hshape, hcells⟩ := h
  obtain ⟨rows, rfl, hlength, hrows⟩ := hasShape_pair_iff.mp (hasShape_of_shape? hshape)
  rw [leaves_of_rows fun row hrow => (hrows row hrow).right] at hcells
  refine ⟨rows, rfl, ?_⟩
  rw [List.forall₂_iff_get]
  refine ⟨by simpa using hlength, ?_⟩
  intro i hi hi'
  have hrow := (hrows _ (List.getElem_mem hi)).left
  rw [List.forall₂_iff_get]
  refine ⟨by simpa using hrow, ?_⟩
  intro j hj hj'
  have hjn : j < n := by
    rw [← hrow]
    exact hj
  have hentry : rows.flatten[i * n + j]? = some rows[i][j] := by
    rw [getElem?_flatten_of_length (fun row hmem => (hrows row hmem).left) hjn]
    simp [hi]
  obtain ⟨hbound, hentry⟩ := List.getElem?_eq_some_iff.mp hentry
  have hbound' : i * n + j < a.cells.length := by
    rw [← hcells.length_eq]
    exact hbound
  have hcell := (List.forall₂_iff_get.mp hcells).right _ hbound hbound'
  have hgrid := a.getElem_toGrid (m := m) (n := n) ⟨i, by simpa using hi'⟩ ⟨j, hjn⟩
  rw [List.getElem?_eq_getElem hbound', Option.getD_some] at hgrid
  simp only [List.get_eq_getElem] at hcell ⊢
  rw [← hentry, hcell, ← hgrid]
  rfl

theorem ofDocument_of_holds (hm : 0 < m) (h : document.Holds g) :
    ∃ a, ofDocument document = .ok a ∧ a.shape = [m, n] ∧ a.toGrid m n = g := by
  obtain ⟨rows, rfl, hrows⟩ := h
  have hlength : rows.length = m := by simpa using hrows.length_eq
  have hentries : ∀ row ∈ rows, row.length = n ∧ ∀ entry ∈ row, hasShape [] entry = true := by
    intro entries hmem
    obtain ⟨row, -, hrow⟩ := exists_mem_of_forall₂ hrows entries hmem
    refine ⟨by simpa using hrow.length_eq, ?_⟩
    intro entry hentry
    obtain ⟨x, -, hx⟩ := exists_mem_of_forall₂ hrow entry hentry
    exact hasShape_of_leaf? hx
  have hcells : List.Forall₂ (fun entry x => leaf? entry = .ok x) rows.flatten
      (g.toList.map Vector.toList).flatten := by
    apply List.rel_flatten
    rwa [List.forall₂_map_right_iff]
  rw [← leaves_of_rows fun row hrow => (hentries row hrow).right] at hcells
  have hne : rows ≠ [] := by
    intro hnil
    rw [hnil] at hlength
    exact absurd hlength (Nat.ne_of_lt hm)
  refine ⟨⟨[m, n], (g.toList.map Vector.toList).flatten⟩, ?_, rfl, ?_⟩
  . rw [ofDocument_eq_ok_iff, shape?_of_rows hne hentries, hlength]
    exact ⟨rfl, hcells⟩
  . have hrow : ∀ cells ∈ g.toList.map Vector.toList, cells.length = n := by simp
    apply Vector.ext
    intro i hi
    apply Vector.ext
    intro j hj
    have hcell := getElem_toGrid ⟨[m, n], (g.toList.map Vector.toList).flatten⟩ ⟨i, hi⟩ ⟨j, hj⟩
    dsimp only at hcell
    rw [getElem?_flatten_of_length hrow hj] at hcell
    refine Eq.trans hcell ?_
    simp [hi, hj]

end NumberArray

end RowSweep
