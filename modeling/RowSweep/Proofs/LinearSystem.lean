import RowSweep.Libraries.Standard
import RowSweep.Proofs.NumberArray

/-!
This module contains which documents are systems of equations, and what is wrong with the others. A document has to hold
an augmented grid, then the grid has to be of the expected size, and last it has to be finite.
-/

namespace RowSweep

namespace Document

def IsAugmented (document : Document) : Prop :=
  ∃ (n : Nat) (g : Grid n (n + 1)), 0 < n ∧ document.Holds g

/--
Whether a document is regular, and what comes first in it that stands for no number is an integer beyond the range.
-/
structure Overflows (document : Document) : Prop where
  isRegular : ∃ shape, NumberArray.shape? document = some shape
  first : ∃ before i after, document.leaves = before ++ .integer i :: after ∧
    (∀ entry ∈ before, ∃ x, NumberArray.leaf? entry = .ok x) ∧ Binary64.integerRangeEnd ≤ i.natAbs

theorem overflows_iff {document : Document} :
    document.Overflows ↔ NumberArray.ofDocument document = .error .outOfRange := by
  rw [NumberArray.ofDocument_eq_outOfRange_iff, mapM_eq_error_iff]
  constructor
  . intro h
    obtain ⟨hregular, before, i, after, hleaves, hbefore, hrange⟩ := h
    exact ⟨hregular, before, _, after, hleaves, hbefore, NumberArray.leaf?_eq_outOfRange_iff.mpr ⟨i, rfl, hrange⟩⟩
  . intro h
    obtain ⟨hregular, before, entry, after, hleaves, hbefore, hentry⟩ := h
    obtain ⟨i, rfl, hrange⟩ := NumberArray.leaf?_eq_outOfRange_iff.mp hentry
    exact ⟨hregular, before, i, after, hleaves, hbefore, hrange⟩

end Document

namespace LinearSystem

variable {complaint : Document → String} {document : Document} {expected : Option Int} {g : Grid n (n + 1)}

theorem filter_expected (h : ∀ size ∈ expected, size = (n : Int)) :
    expected.filter (fun size => size ≠ (n : Int)) = none := by
  rw [Option.filter_eq_none_iff]
  intro size hsize
  simp [h size hsize]

theorem ofDocument_of_holds (hn : 0 < n) (h : document.Holds g) :
    ofDocument complaint document expected =
      match expected.filter (fun size => size ≠ (n : Int)) with
      | some size => .error (.rejected (.sizeMismatch size n (n + 1)))
      | none =>
        if isFinite : g.isFinite then .ok ⟨n, g, hn, isFinite⟩
        else .error (.rejected (.nonFinite n (n + 1))) := by
  obtain ⟨⟨shape, cells⟩, hread, hshape, rfl⟩ := NumberArray.ofDocument_of_holds hn h
  cases hshape
  unfold ofDocument
  rw [hread]
  exact dif_neg (by omega)

theorem ofDocument_of_size_ne {size : Int} (hn : 0 < n) (h : document.Holds g) (hne : size ≠ n) :
    ofDocument complaint document (some size) = .error (.rejected (.sizeMismatch size n (n + 1))) := by
  rw [ofDocument_of_holds hn h, Option.filter_some_pos (by simpa using hne)]

theorem ofDocument_of_isFinite (hn : 0 < n) (h : document.Holds g) (hexpected : ∀ size ∈ expected, size = (n : Int))
    (hfinite : g.isFinite = true) : ofDocument complaint document expected = .ok ⟨n, g, hn, hfinite⟩ := by
  rw [ofDocument_of_holds hn h, filter_expected hexpected]
  exact dif_pos hfinite

theorem ofDocument_of_not_isFinite (hn : 0 < n) (h : document.Holds g)
    (hexpected : ∀ size ∈ expected, size = (n : Int)) (hfinite : g.isFinite = false) :
    ofDocument complaint document expected = .error (.rejected (.nonFinite n (n + 1))) := by
  rw [ofDocument_of_holds hn h, filter_expected hexpected]
  exact dif_neg (by simp [hfinite])

theorem ofDocument_of_overflows (h : document.Overflows) :
    ofDocument complaint document expected = .error .outOfRange := by
  unfold ofDocument
  rw [Document.overflows_iff.mp h]

theorem exists_shape_fault (h : ¬ document.IsAugmented) (hrange : ¬ document.Overflows) :
    ∃ fault, ofDocument complaint document expected = .error (.rejected fault) ∧
      fault.code = "E_INPUT_SHAPE_INVALID" := by
  -- All other documents have the wrong shape.
  rw [Document.overflows_iff] at hrange
  unfold ofDocument
  cases hread : NumberArray.ofDocument document with
  | error failure =>
    cases failure with
    | irregular => exact ⟨_, rfl, rfl⟩
    | outOfRange => exact absurd hread hrange
  | ok a =>
    dsimp only
    split
    next rows columns hshape =>
      split
      next => exact ⟨_, rfl, rfl⟩
      next haugmented =>
        obtain ⟨hrows, rfl⟩ : 0 < rows ∧ columns = rows + 1 := by omega
        exact absurd ⟨rows, _, hrows, NumberArray.holds_toGrid hread hshape⟩ h
    next => exact ⟨_, rfl, rfl⟩

theorem ofDocument_eq_ok_iff {system : LinearSystem} :
    ofDocument complaint document expected = .ok system ↔
      document.Holds system.grid ∧ ∀ size ∈ expected, size = (system.size : Int) := by
  constructor
  . intro h
    by_cases haugmented : document.IsAugmented
    . obtain ⟨n, g, hn, hholds⟩ := haugmented
      rw [ofDocument_of_holds hn hholds] at h
      split at h
      next => cases h
      next hexpected =>
        split at h
        next =>
          cases h
          refine ⟨hholds, ?_⟩
          intro size hsize
          simpa using Option.filter_eq_none_iff.mp hexpected size hsize
        next => cases h
    . by_cases hrange : document.Overflows
      . rw [ofDocument_of_overflows hrange] at h
        cases h
      . obtain ⟨fault, hfault, -⟩ := exists_shape_fault haugmented hrange
        rw [hfault] at h
        cases h
  . intro h
    exact ofDocument_of_isFinite system.size_pos h.left h.right system.isFinite

theorem ofDocument_eq_outOfRange_iff :
    ofDocument complaint document expected = .error .outOfRange ↔ document.Overflows := by
  constructor
  . intro h
    by_contra hrange
    by_cases haugmented : document.IsAugmented
    . obtain ⟨n, g, hn, hholds⟩ := haugmented
      rw [ofDocument_of_holds hn hholds] at h
      split at h
      next => cases h
      next => split at h <;> cases h
    . obtain ⟨fault, hfault, -⟩ := exists_shape_fault haugmented hrange
      rw [hfault] at h
      cases h
  . intro h
    exact ofDocument_of_overflows h

end LinearSystem

theorem system_of_document (complaint : Document → String) (document : Document) (expected : Option Int) :
    (∀ system, LinearSystem.ofDocument complaint document expected = .ok system ↔
      document.Holds system.grid ∧ ∀ size ∈ expected, size = (system.size : Int)) ∧
    (¬ document.IsAugmented → ¬ document.Overflows → ∃ fault,
      LinearSystem.ofDocument complaint document expected = .error (.rejected fault) ∧
        fault.code = "E_INPUT_SHAPE_INVALID") ∧
    (∀ (n : Nat) (g : Grid n (n + 1)), 0 < n → document.Holds g →
      (∀ size ∈ expected, size ≠ (n : Int) → ∃ fault,
        LinearSystem.ofDocument complaint document expected = .error (.rejected fault) ∧
        fault.code = "E_INPUT_SIZE_MISMATCH") ∧
      ((∀ size ∈ expected, size = (n : Int)) → g.isFinite = false → ∃ fault,
        LinearSystem.ofDocument complaint document expected = .error (.rejected fault) ∧
        fault.code = "E_INPUT_NONFINITE")) ∧
    (LinearSystem.ofDocument complaint document expected = .error .outOfRange ↔ document.Overflows) ∧
    ((∀ i, .integer i ∈ document.leaves → i.natAbs < Binary64.integerRangeEnd) → ¬ document.Overflows) := by
  refine ⟨fun system => LinearSystem.ofDocument_eq_ok_iff, LinearSystem.exists_shape_fault, ?_,
    LinearSystem.ofDocument_eq_outOfRange_iff, ?_⟩
  . intro n g hn hholds
    constructor
    . intro size hsize hne
      rw [Option.mem_def.mp hsize]
      exact ⟨_, LinearSystem.ofDocument_of_size_ne hn hholds hne, rfl⟩
    . intro hexpected hfinite
      exact ⟨_, LinearSystem.ofDocument_of_not_isFinite hn hholds hexpected hfinite, rfl⟩
  . intro hrange hoverflows
    obtain ⟨before, i, after, hleaves, -, hlong⟩ := hoverflows.first
    have hshort := hrange i (by simp [hleaves])
    omega

def nullCoefficient : Document :=
  .sequence [.sequence [.null, .boolean true]]

theorem system_of_nullCoefficient :
    nullCoefficient.Holds (#v[#v[.nan, .one]] : Grid 1 2) ∧
      (∃ fault,
        LinearSystem.ofDocument Libraries.standard.complaint nullCoefficient (some 2) = .error (.rejected fault) ∧
        fault.code = "E_INPUT_SIZE_MISMATCH") ∧
      ∃ fault,
        LinearSystem.ofDocument Libraries.standard.complaint nullCoefficient (some 1) = .error (.rejected fault) ∧
        fault.code = "E_INPUT_NONFINITE" := by
  -- The missing coefficient only counts where the size is as expected.
  have hholds : nullCoefficient.Holds (#v[#v[.nan, .one]] : Grid 1 2) := by
    refine ⟨[[.null, .boolean true]], rfl, ?_⟩
    simp [NumberArray.leaf?]
  have hfinite : Grid.isFinite (#v[#v[.nan, .one]] : Grid 1 2) = false := by decide +kernel
  obtain ⟨-, -, hmismatch, -, -⟩ := system_of_document Libraries.standard.complaint nullCoefficient (some 2)
  obtain ⟨-, -, hnonFinite, -, -⟩ := system_of_document Libraries.standard.complaint nullCoefficient (some 1)
  refine ⟨hholds, ?_, ?_⟩
  . exact (hmismatch 1 _ Nat.one_pos hholds).left 2 rfl (by decide)
  . exact (hnonFinite 1 _ Nat.one_pos hholds).right (by simp) hfinite

theorem not_system_or_fault_of_long_integer :
    let document := Document.sequence [.sequence [.integer (10 ^ 309), .integer 1]]
    ¬ ((∃ system, LinearSystem.ofDocument Libraries.standard.complaint document none = .ok system) ∨
      ∃ fault, LinearSystem.ofDocument Libraries.standard.complaint document none = .error (.rejected fault)) := by
  -- An integer of 310 digits makes an error of another kind, in a document that has the right shape.
  intro document
  have hread : LinearSystem.ofDocument Libraries.standard.complaint document none = .error .outOfRange := by
    rw [LinearSystem.ofDocument_eq_outOfRange_iff]
    exact ⟨⟨[1, 2], rfl⟩, [], 10 ^ 309, [.integer 1], rfl, List.forall_mem_nil _, by decide +kernel⟩
  rw [hread]
  simp

end RowSweep
