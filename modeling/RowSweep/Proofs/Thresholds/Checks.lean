import RowSweep.Proofs.Binary64.Range
import RowSweep.Proofs.Except
import RowSweep.Thresholds.Reader

/-!
This module contains the reading of thresholds as a list of checks, one after the other. Each of them is about one place
of the document, or about numbers that have been found before. The reading fails with what the first check has found,
and without such a check it gives what stands at these places.
-/

namespace RowSweep

namespace Document

def find? (document : Document) (path : List String) : Option Document :=
  path.foldl (fun found key => found.bind (get? key)) (some document)

theorem find?_concat (document : Document) (path : List String) (key : String) :
    document.find? (path ++ [key]) = (document.find? path).bind (get? key) := by
  simp [find?]

theorem find?_cons (document : Document) (key : String) (path : List String) :
    document.find? (key :: path) = (document.get? key).bind (·.find? path) := by
  unfold find?
  rw [List.foldl_cons, Option.bind_some]
  cases document.get? key with
  | some value => rfl
  | none =>
    induction path with
    | nil => rfl
    | cons key rest ih => exact ih

theorem exists_mapping_of_find?_concat {document value : Document} {path : List String} {key : String}
    (h : document.find? (path ++ [key]) = some value) : ∃ entries, document.find? path = some (.mapping entries) := by
  rw [find?_concat, Option.bind_eq_some_iff] at h
  obtain ⟨block, hblock, hvalue⟩ := h
  cases block with
  | mapping entries => exact ⟨entries, hblock⟩
  | _ => cases hvalue

def number? : Document → Option Binary64
  | integer i => some (.ofInt i)
  | real x => some x
  | _ => none

def findNumber? (document : Document) (path : List String) : Option Binary64 :=
  (document.find? path).bind number?

end Document

namespace Thresholds

inductive FieldKind where
  | mapping
  | text
  | truth
  | number
  | positive
  deriving DecidableEq

def FieldKind.fault? (kind : FieldKind) (key : String) (value : Option Document) : Option ThresholdError :=
  match kind, value with
  | mapping, some (.mapping _) => none
  | mapping, _ => some (.rejected (.noMapping key))
  | text, some (.text s) => if s = "" then some (.rejected (.noText key)) else none
  | text, _ => some (.rejected (.noText key))
  | truth, some (.boolean _) => none
  | truth, _ => some (.rejected (.noTruth key))
  | number, some (.boolean _) => some (.rejected (.truthForNumber key))
  | number, some (.integer i) => if Binary64.integerRangeEnd ≤ i.natAbs then some .outOfRange else none
  | number, some (.real x) => if x.isFinite then none else some (.rejected (.noNumber key))
  | number, _ => some (.rejected (.noNumber key))
  | positive, none => some (.rejected (.noKey key))
  | positive, some .null => none
  | positive, some (.integer i) => if i < 1 then some (.rejected (.notPositive key)) else none
  | positive, some _ => some (.rejected (.notPositive key))

inductive Check where
  | root
  | field (kind : FieldKind) (block : List String) (key : String)
  | rule (fault : ThresholdFault) (broken : Document → Bool)

def Check.fault? (check : Check) (document : Document) : Option ThresholdError :=
  match check with
  | root => if document matches .mapping _ then none else some (.rejected .rootNotMapping)
  | field kind block key => kind.fault? key (document.find? (block ++ [key]))
  | rule fault broken => if broken document then some (.rejected fault) else none

def firstFault? (checks : List Check) (document : Document) : Option ThresholdError :=
  checks.findSome? (·.fault? document)

theorem firstFault?_eq_none_iff {checks : List Check} {document : Document} :
    firstFault? checks document = none ↔ ∀ check ∈ checks, check.fault? document = none :=
  List.findSome?_eq_none_iff

/-!
### Computations that follow checks
-/

/--
Whether a computation fails with what the first check that fails has found, and else gives a value with a property.
-/
def Follows (document : Document) (checks : List Check) (x : Except ThresholdError α) (P : α → Prop) : Prop :=
  match firstFault? checks document with
  | some e => x = .error e
  | none => ∃ a, x = .ok a ∧ P a

variable {document : Document} {check : Check} {checks checks' : List Check} {x : Except ThresholdError α}
  {f : α → Except ThresholdError β} {P : α → Prop} {Q : β → Prop}

namespace Follows

theorem pure (h : P a) : Follows document [] (.ok a) P :=
  ⟨a, rfl, h⟩

theorem bind (hx : Follows document checks x P) (hf : ∀ a, P a → Follows document checks' (f a) Q) :
    Follows document (checks ++ checks') (x >>= f) Q := by
  unfold Follows firstFault? at *
  rw [List.findSome?_append]
  cases hfault : checks.findSome? (·.fault? document) with
  | some e =>
    rw [hfault] at hx
    dsimp only at hx
    rw [hx]
    rfl
  | none =>
    rw [hfault] at hx
    dsimp only at hx
    obtain ⟨a, rfl, ha⟩ := hx
    exact hf a ha

theorem step (hx : Follows document [check] x P) (hf : ∀ a, P a → Follows document checks (f a) Q) :
    Follows document (check :: checks) (x >>= f) Q :=
  hx.bind hf

theorem skip (hcheck : check.fault? document = none) (hx : Follows document checks x P) :
    Follows document (check :: checks) x P := by
  unfold Follows firstFault? at *
  rw [List.findSome?_cons, hcheck]
  exact hx

theorem guard {fault : ThresholdFault} {broken : Document → Bool} {b : Bool} (hb : broken document = b)
    (hx : b = false → Follows document checks x P) :
    Follows document (.rule fault broken :: checks) (if b = true then .error (.rejected fault) else x) P := by
  unfold Follows firstFault? at *
  rw [List.findSome?_cons]
  cases b with
  | true => simp [Check.fault?, hb]
  | false =>
    have hx := hx rfl
    simpa [Check.fault?, hb] using hx

theorem eq_error_iff (h : Follows document checks x P) (e : ThresholdError) :
    x = .error e ↔ firstFault? checks document = some e := by
  unfold Follows at h
  split at h
  next e' hfault => simp [h, hfault]
  next hfault =>
    obtain ⟨a, rfl, -⟩ := h
    simp [hfault]

theorem exists_ok_iff (h : Follows document checks x P) :
    (∃ a, x = .ok a) ↔ firstFault? checks document = none := by
  unfold Follows at h
  split at h
  next e hfault => simp [h, hfault]
  next hfault =>
    obtain ⟨a, rfl, -⟩ := h
    simp [hfault]

theorem of_eq_ok (h : Follows document checks x P) (hx : x = .ok a) : P a := by
  unfold Follows at h
  split at h
  next e hfault =>
    rw [hx] at h
    cases h
  next hfault =>
    obtain ⟨a', ha', hP⟩ := h
    rw [hx] at ha'
    cases ha'
    exact hP

end Follows

/-!
### Fields
-/

section Fields

attribute [local irreducible] Binary64.integerRangeEnd

variable {block : Block} {path : List String} {key : String}

theorem lookup_eq_find? (h : document.find? path = some (.mapping block)) (key : String) :
    block.lookup key = document.find? (path ++ [key]) := by
  rw [Document.find?_concat, h]
  rfl

theorem Follows.fails {kind : FieldKind} {value : Option Document} (hvalue : document.find? (path ++ [key]) = value)
    (hfault : kind.fault? key value = some e) : Follows document [.field kind path key] (.error e) P := by
  unfold Follows firstFault?
  rw [List.findSome?_singleton, Check.fault?, hvalue, hfault]

theorem Follows.passes {kind : FieldKind} {value : Option Document} (hvalue : document.find? (path ++ [key]) = value)
    (hfault : kind.fault? key value = none) (ha : P a) : Follows document [.field kind path key] (.ok a) P := by
  unfold Follows firstFault?
  rw [List.findSome?_singleton, Check.fault?, hvalue, hfault]
  exact ⟨a, rfl, ha⟩

theorem follows_mapping (h : document.find? path = some (.mapping block)) :
    Follows document [.field .mapping path key] (block.mapping key)
      fun entries => document.find? (path ++ [key]) = some (.mapping entries) := by
  unfold Block.mapping
  rw [lookup_eq_find? h]
  cases hvalue : document.find? (path ++ [key]) with
  | none => exact .fails hvalue rfl
  | some value =>
    cases value with
    | mapping entries => exact .passes hvalue rfl rfl
    | _ => exact .fails hvalue rfl

theorem follows_text (h : document.find? path = some (.mapping block)) :
    Follows document [.field .text path key] (block.text key)
      fun s => document.find? (path ++ [key]) = some (.text s) ∧ s ≠ "" := by
  unfold Block.text
  rw [lookup_eq_find? h]
  cases hvalue : document.find? (path ++ [key]) with
  | none => exact .fails hvalue rfl
  | some value =>
    cases value with
    | text s =>
      dsimp only
      split
      next hs => exact .fails hvalue (if_pos hs)
      next hs => exact .passes hvalue (if_neg hs) ⟨rfl, hs⟩
    | _ => exact .fails hvalue rfl

theorem follows_truth (h : document.find? path = some (.mapping block)) :
    Follows document [.field .truth path key] (block.truth key)
      fun b => document.find? (path ++ [key]) = some (.boolean b) := by
  unfold Block.truth
  rw [lookup_eq_find? h]
  cases hvalue : document.find? (path ++ [key]) with
  | none => exact .fails hvalue rfl
  | some value =>
    cases value with
    | boolean b => exact .passes hvalue rfl rfl
    | _ => exact .fails hvalue rfl

theorem follows_positive (h : document.find? path = some (.mapping block)) :
    Follows document [.field .positive path key] (block.positive key)
      fun k => (document.find? (path ++ [key]) = some (k.elim .null .integer)) ∧ ∀ i ∈ k, 1 ≤ i := by
  unfold Block.positive
  rw [lookup_eq_find? h]
  cases hvalue : document.find? (path ++ [key]) with
  | none => exact .fails hvalue rfl
  | some value =>
    cases value with
    | null => exact .passes hvalue rfl ⟨rfl, nofun⟩
    | integer i =>
      dsimp only
      split
      next hi => exact .fails hvalue (if_pos hi)
      next hi =>
        refine .passes hvalue (if_neg hi) ⟨rfl, ?_⟩
        simpa using hi
    | _ => exact .fails hvalue rfl

theorem follows_number (h : document.find? path = some (.mapping block)) :
    Follows document [.field .number path key] (block.number key)
      fun v => document.findNumber? (path ++ [key]) = some v ∧ v.isFinite = true := by
  unfold Block.number Document.findNumber?
  rw [lookup_eq_find? h]
  cases hvalue : document.find? (path ++ [key]) with
  | none => exact .fails hvalue rfl
  | some value =>
    cases value with
    | integer i =>
      have hrange := Binary64.isFinite_ofInt_iff i
      dsimp only
      split
      next hfinite => exact .passes hvalue (if_neg (Nat.not_le.mpr (hrange.mp hfinite))) ⟨rfl, hfinite⟩
      next hinfinite => exact .fails hvalue (if_pos (Nat.not_lt.mp (hrange.not.mp hinfinite)))
    | real v =>
      dsimp only
      split
      next hfinite => exact .passes hvalue (if_pos hfinite) ⟨rfl, hfinite⟩
      next hinfinite => exact .fails hvalue (if_neg hinfinite)
    | _ => exact .fails hvalue rfl

theorem fault?_mapping (h : document.find? (path ++ [key]) = some (.mapping block)) :
    (Check.field .mapping path key).fault? document = none := by
  rw [Check.fault?, h]
  rfl

theorem fault?_text {s : String} (h : document.find? (path ++ [key]) = some (.text s)) (hs : s ≠ "") :
    (Check.field .text path key).fault? document = none := by
  rw [Check.fault?, h]
  exact if_neg hs

theorem fault?_truth {b : Bool} (h : document.find? (path ++ [key]) = some (.boolean b)) :
    (Check.field .truth path key).fault? document = none := by
  rw [Check.fault?, h]
  rfl

theorem fault?_positive {k : Option Int} (h : document.find? (path ++ [key]) = some (k.elim .null .integer))
    (hk : ∀ i ∈ k, 1 ≤ i) : (Check.field .positive path key).fault? document = none := by
  rw [Check.fault?, h]
  cases k with
  | none => rfl
  | some i => exact if_neg (Int.not_lt.mpr (hk i rfl))

theorem fault?_number {v : Binary64} (h : document.findNumber? (path ++ [key]) = some v) (hv : v.isFinite = true) :
    (Check.field .number path key).fault? document = none := by
  obtain ⟨value, hvalue, hnumber⟩ := Option.bind_eq_some_iff.mp h
  rw [Check.fault?, hvalue]
  cases value with
  | integer i =>
    cases hnumber
    exact if_neg (Nat.not_le.mpr ((Binary64.isFinite_ofInt_iff i).mp hv))
  | real v' =>
    cases hnumber
    exact if_pos hv
  | _ => cases hnumber

theorem FieldKind.fault?_eq_outOfRange_iff {kind : FieldKind} {value : Option Document} :
    kind.fault? key value = some .outOfRange ↔
      kind = .number ∧ ∃ i, value = some (.integer i) ∧ Binary64.integerRangeEnd ≤ i.natAbs := by
  cases value with
  | none => cases kind <;> simp [FieldKind.fault?]
  | some value => cases kind <;> cases value <;> simp [FieldKind.fault?]

theorem fault?_rule {fault : ThresholdFault} {broken : Document → Bool} (h : broken document = false) :
    (Check.rule fault broken).fault? document = none := by
  simp [Check.fault?, h]

theorem fault?_eq_outOfRange_iff :
    check.fault? document = some .outOfRange ↔ ∃ path key i, check = .field .number path key ∧
      document.find? (path ++ [key]) = some (.integer i) ∧ Binary64.integerRangeEnd ≤ i.natAbs := by
  cases check with
  | root => simp [Check.fault?]
  | field kind path key =>
    rw [Check.fault?, FieldKind.fault?_eq_outOfRange_iff]
    constructor
    . intro h
      obtain ⟨rfl, i, hi⟩ := h
      exact ⟨path, key, i, rfl, hi⟩
    . intro h
      obtain ⟨path', key', i, hcheck, hi⟩ := h
      cases hcheck
      exact ⟨rfl, i, hi⟩
  | rule fault broken => simp [Check.fault?]

end Fields

end Thresholds

end RowSweep
