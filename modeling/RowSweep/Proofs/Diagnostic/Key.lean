import RowSweep.Proofs.Diagnostic.Sort

/-!
This module contains what the sort key tells apart: valid diagnostics have one key exactly if they are alike, since the
text of a witness and the key of a place both determine what they were made of.
-/

namespace RowSweep

theorem PlaceKey.ofPosition_inj {p q : Option Position} : ofPosition p = ofPosition q ↔ p = q :=
  ofPosition_injective.eq_iff

theorem Evidence.witnessText_inj {e e' : Evidence} {w w' : Option Document} (hw : e.witness = .ok w)
    (hw' : e'.witness = .ok w') : witnessText w = witnessText w' ↔ w = w' := by
  constructor
  . apply witnessText_injective
    . apply isPlain_of_witness hw
    . apply isPlain_of_witness hw'
  . intro h
    rw [h]

namespace Diagnostic

theorem key_inj {a b : Diagnostic} (ha : a.IsValid) (hb : b.IsValid) : a.key = b.key ↔ a.Alike b :=
  ⟨alike_of_key_eq ha hb, key_eq_of_alike⟩

end Diagnostic

theorem key_eq_iff_alike (a b : Diagnostic) (ha : a.IsValid) (hb : b.IsValid) :
    (a.key = b.key ↔ a.Alike b) ∧
      (∀ (e e' : Evidence) (w w' : Option Document), e.witness = .ok w → e'.witness = .ok w' →
        (witnessText w = witnessText w' ↔ w = w')) ∧
      ∀ p q : Option Position, PlaceKey.ofPosition p = PlaceKey.ofPosition q ↔ p = q := by
  refine ⟨Diagnostic.key_inj ha hb, ?_, ?_⟩
  . intro e e' w w' hw hw'
    apply Evidence.witnessText_inj hw hw'
  . intro p q
    apply PlaceKey.ofPosition_inj

def quotedDiagnostic (value : Document) : Diagnostic :=
  { firstRowDiagnostic "quoted" none "read" (by decide) (by decide) with witness := some (.mapping [("\"", value)]) }

theorem isValid_quotedDiagnostic {value : Document} {e : Evidence} (h : e.plain = .ok value) :
    (quotedDiagnostic value).IsValid := by
  rw [Diagnostic.isValid_iff]
  refine ⟨.mapping [(.text "\"", e)], ?_⟩
  rw [Evidence.witness, Evidence.plain]
  simp only [Evidence.plainEntries, h]
  rfl

theorem key_ne_of_integer_of_real :
    (quotedDiagnostic (.integer 1)).IsValid ∧ (quotedDiagnostic (.real (.ofInt 1))).IsValid ∧
      (quotedDiagnostic (.integer 1)).key ≠ (quotedDiagnostic (.real (.ofInt 1))).key := by
  have hinteger : (quotedDiagnostic (.integer 1)).IsValid := isValid_quotedDiagnostic (e := .integer 1) rfl
  have hreal : (quotedDiagnostic (.real (.ofInt 1))).IsValid :=
    isValid_quotedDiagnostic (e := .element (.real (.ofInt 1))) rfl
  refine ⟨hinteger, hreal, ?_⟩
  rw [ne_eq, (key_eq_iff_alike _ _ hinteger hreal).left]
  intro halike
  have hwitness := halike.witness
  simp [quotedDiagnostic] at hwitness

end RowSweep
