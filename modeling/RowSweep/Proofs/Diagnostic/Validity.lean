import RowSweep.Diagnostic.Build
import RowSweep.Proofs.Diagnostic.Witness

/-!
This module contains valid diagnostics: those that can be made of named fields. This asks nothing but that the witness
is one that evidence is stored as, and it holds of all that is built from findings.
-/

namespace RowSweep

open Fields

theorem Severity.ofName?_name (severity : Severity) : Severity.ofName? severity.name = some severity := by
  cases severity <;> rfl

theorem Stage.ofName?_name (stage : Stage) : Stage.ofName? stage.name = some stage := by
  cases stage <;> rfl

theorem Severity.rank_injective : Function.Injective Severity.rank := by
  intro a b h
  cases a <;> cases b <;> first | rfl | cases h

theorem Stage.rank_injective : Function.Injective Stage.rank := by
  intro a b h
  cases a <;> cases b <;> first | rfl | cases h

namespace Evidence

def ofText? : Option String → Evidence
  | none => null
  | some s => text s

def ofIndex? : Option Nat → Evidence
  | none => null
  | some k => integer k

end Evidence

namespace Fields

variable {key : String} {fields : Fields}

theorem eq_text_of_filledText {e : Evidence} {s : { s : String // s ≠ "" }} (h : filledText key e = .ok s) :
    e = .text s := by
  unfold filledText at h
  split at h
  next =>
    split at h
    next => cases h
    next =>
      cases h
      rfl
  next => cases h

theorem eq_ofText?_of_textOrNull {e : Evidence} {text : Option String} (h : textOrNull key e = .ok text) :
    e = .ofText? text := by
  unfold textOrNull at h
  split at h
  next =>
    cases h
    rfl
  next =>
    cases h
    rfl
  next => cases h

theorem requiredText_of_lookup (h : List.lookup key fields = some (.text s)) (hs : s ≠ "") :
    fields.requiredText key = .ok ⟨s, hs⟩ := by
  unfold requiredText
  rw [h]
  exact dif_neg hs

theorem member_of_lookup {ofName? : String → Option α} (h : List.lookup key fields = some (.text s))
    (hs : ofName? s = some value) : fields.member key ofName? = .ok value := by
  unfold member
  rw [h]
  dsimp only
  rw [hs]

theorem optionalText_of_lookup {text : Option String} (h : List.lookup key fields = some (.ofText? text)) :
    fields.optionalText key = .ok text := by
  unfold optionalText
  rw [h]
  cases text <;> rfl

theorem index_of_lookup (h : List.lookup key fields = some (.ofIndex? k)) : fields.index key = .ok k := by
  unfold index
  rw [h]
  cases k with
  | none => rfl
  | some k =>
    have hk : ¬ (k : Int) < 0 := by omega
    simp [Evidence.ofIndex?, integer, hk]

end Fields

namespace Position

def fields (p : Position) : Fields :=
  [("row", .ofIndex? p.row), ("column", .ofIndex? p.column)]

def evidence (p : Position) : Evidence :=
  .mapping (p.fields.map fun (key, value) => (.text key, value))

theorem ofFields_fields (p : Position) : ofFields p.fields = .ok p := by
  have hrow : p.fields.index "row" = .ok p.row := Fields.index_of_lookup rfl
  have hcolumn : p.fields.index "column" = .ok p.column := Fields.index_of_lookup rfl
  unfold ofFields
  rw [hrow, hcolumn]
  exact dif_pos p.placed

theorem ofEvidence_evidence (p : Position) : ofEvidence p.evidence = .ok p :=
  ofFields_fields p

end Position

theorem Fields.position_of_lookup {key : String} {fields : Fields} {position : Option Position}
    (h : List.lookup key fields = some ((position.map Position.evidence).getD .null)) :
    fields.position key = .ok position := by
  unfold Fields.position
  rw [h]
  cases position with
  | none => rfl
  | some p =>
    have hp := Position.ofEvidence_evidence p
    unfold Position.evidence at hp
    simp [Position.evidence, hp]

namespace Diagnostic

def IsValid (d : Diagnostic) : Prop :=
  ∃ fields, ofFields fields = .ok d

def fields (d : Diagnostic) (e : Evidence) : Fields :=
  [("code", .text d.code), ("severity", .text d.severity.name), ("message", .text d.message),
    ("suggested_action", .text d.action), ("solver_stage", .text d.stage.name), ("source", .ofText? d.source),
    ("position", (d.position.map Position.evidence).getD .null), ("witness", e)]

theorem ofFields_fields {d : Diagnostic} {e : Evidence} (h : e.witness = .ok d.witness) :
    ofFields (d.fields e) = .ok d := by
  have hcode : (d.fields e).requiredText "code" = .ok ⟨d.code, d.code_ne⟩ := requiredText_of_lookup rfl d.code_ne
  have hseverity : (d.fields e).member "severity" Severity.ofName? = .ok d.severity :=
    member_of_lookup rfl d.severity.ofName?_name
  have hmessage : (d.fields e).requiredText "message" = .ok ⟨d.message, d.message_ne⟩ :=
    requiredText_of_lookup rfl d.message_ne
  have haction : (d.fields e).requiredText "suggested_action" = .ok ⟨d.action, d.action_ne⟩ :=
    requiredText_of_lookup rfl d.action_ne
  have hstage : (d.fields e).member "solver_stage" Stage.ofName? = .ok d.stage :=
    member_of_lookup rfl d.stage.ofName?_name
  have hsource : (d.fields e).optionalText "source" = .ok d.source := optionalText_of_lookup rfl
  have hposition : (d.fields e).position "position" = .ok d.position := position_of_lookup rfl
  have hwitness : (d.fields e).witness "witness" = .ok d.witness := mapError_eq_ok_iff.mpr h
  unfold ofFields
  rw [hcode, hseverity, hmessage, haction, hstage, hsource, hposition, hwitness]
  exact dif_pos d.located

theorem isValid_iff {d : Diagnostic} : d.IsValid ↔ ∃ e : Evidence, e.witness = .ok d.witness := by
  constructor
  . intro h
    obtain ⟨fields, h⟩ := h
    unfold ofFields at h
    dsimp only at h
    split at h
    next hwitness =>
      split at h
      next =>
        split at h
        next =>
          cases h
          exact ⟨_, mapError_eq_ok_iff.mp hwitness⟩
        next => cases h
      next => cases h
    next => cases h
  . intro h
    obtain ⟨e, he⟩ := h
    exact ⟨d.fields e, ofFields_fields he⟩

theorem IsValid.isPlain {d : Diagnostic} (h : d.IsValid) : ∀ document ∈ d.witness, document.IsPlain := by
  obtain ⟨e, he⟩ := isValid_iff.mp h
  exact Evidence.isPlain_of_witness he

structure Reports (d : Diagnostic) (f : Finding) : Prop where
  code : f.code = .text d.code
  message : f.message = .text d.message
  source : f.source = .ofText? d.source
  witness : f.witness.witness = .ok d.witness
  named : d.source ≠ some ""
  action : resolveAction d.code f.action ((Catalog.canonical.find? d.code).map (·.action)) = .ok (.text d.action)

theorem of_assemble {d : Diagnostic} {severity : Severity} {stage : Stage} {position : Option Position}
    {code message action source witness : Evidence}
    (h : assemble severity stage position code message action source witness = .ok d) :
    code = .text d.code ∧ message = .text d.message ∧ action = .text d.action ∧ source = .ofText? d.source ∧
      witness.witness = .ok d.witness := by
  unfold assemble at h
  split at h
  next hcode hmessage haction hsource hwitness =>
    split at h
    next =>
      cases h
      exact ⟨eq_text_of_filledText hcode, eq_text_of_filledText hmessage, eq_text_of_filledText haction,
        eq_ofText?_of_textOrNull hsource, mapError_eq_ok_iff.mp hwitness⟩
    next => cases h
  next => cases h

theorem reports_of_build {f : Finding} {d : Diagnostic} (h : build f = .ok d) : d.Reports f := by
  unfold build at h
  simp only [ite_error_eq_ok_iff] at h
  obtain ⟨-, -, hsource, h⟩ := h
  split at h
  next => cases h
  next code hcode =>
    simp only [bind_eq_ok_iff, ite_error_eq_ok_iff, mapError_eq_ok_iff] at h
    obtain ⟨severity, -, stage, -, action, haction, -, position, -, h⟩ := h
    obtain ⟨hlabel, hmessage, rfl, htext, hwitness⟩ := of_assemble h
    rw [hlabel] at hcode
    cases hcode
    refine ⟨hlabel, hmessage, htext, hwitness, ?_, haction⟩
    intro hempty
    rw [htext, hempty] at hsource
    exact hsource rfl

theorem isValid_of_build {f : Finding} {d : Diagnostic} (h : build f = .ok d) : d.IsValid :=
  isValid_iff.mpr ⟨f.witness, (reports_of_build h).witness⟩

theorem Reports.action_of_null {f : Finding} {d : Diagnostic} (h : d.Reports f) (hnull : f.action = .null) :
    (Catalog.canonical.find? d.code).map (·.action) = some d.action := by
  have haction := h.action
  rw [hnull] at haction
  cases hknown : (Catalog.canonical.find? d.code).map (·.action) with
  | none =>
    rw [hknown] at haction
    cases haction
  | some action =>
    rw [hknown] at haction
    cases haction
    rfl

end Diagnostic

end RowSweep
