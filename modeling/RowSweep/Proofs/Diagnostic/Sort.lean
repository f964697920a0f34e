import RowSweep.Diagnostic.Report
import RowSweep.Proofs.Diagnostic.Order
import RowSweep.Proofs.Diagnostic.Validity

/-!
This module contains when the result of sorting valid diagnostics does not depend on the order in which they come: no
two of them may differ in nothing but the action or a source that is empty or missing. The diagnostics of a solution are
of this kind.
-/

namespace RowSweep

namespace Diagnostic

variable {ds ds' : List Diagnostic} {a b : Diagnostic}

/--
Whether diagnostics agree in all that they are ordered by. Their actions may differ, and one may have an empty source
and the other one none.
-/
structure Alike (a b : Diagnostic) : Prop where
  severity : a.severity = b.severity
  stage : a.stage = b.stage
  position : a.position = b.position
  code : a.code = b.code
  source : a.source.getD "" = b.source.getD ""
  message : a.message = b.message
  witness : a.witness = b.witness

theorem key_eq_of_alike (h : a.Alike b) : a.key = b.key := by
  unfold key
  rw [h.severity, h.stage, h.position, h.code, h.source, h.message, h.witness]

theorem alike_of_key_eq (ha : a.IsValid) (hb : b.IsValid) (h : a.key = b.key) : a.Alike b where
  severity := Severity.rank_injective (congrArg DiagnosticKey.severity h)
  stage := Stage.rank_injective (congrArg DiagnosticKey.stage h)
  position := PlaceKey.ofPosition_injective (congrArg DiagnosticKey.place h)
  code := congrArg DiagnosticKey.code h
  source := congrArg DiagnosticKey.source h
  message := congrArg DiagnosticKey.message h
  witness := witnessText_injective ha.isPlain hb.isPlain (congrArg DiagnosticKey.witness h)

theorem Alike.eq (h : a.Alike b) (haction : a.action = b.action) (hsource : a.source = b.source) : a = b := by
  cases a
  cases b
  simp only [mk.injEq]
  exact ⟨h.code, h.severity, h.message, haction, h.stage, hsource, h.position, h.witness⟩

end Diagnostic

open Diagnostic in
theorem forall_sort_eq_iff_alike (ds : List Diagnostic) (hvalid : ∀ d ∈ ds, d.IsValid) :
    (∀ ds', ds'.Perm ds → sort ds' = sort ds) ↔
      ∀ a ∈ ds, ∀ b ∈ ds, a.Alike b → a.action = b.action ∧ a.source = b.source := by
  rw [forall_sort_eq_iff_key]
  constructor
  . intro hkeys a ha b hb halike
    rw [hkeys a ha b hb (key_eq_of_alike halike)]
    exact ⟨rfl, rfl⟩
  . intro hequal a ha b hb hkey
    have halike := alike_of_key_eq (hvalid a ha) (hvalid b hb) hkey
    obtain ⟨haction, hsource⟩ := hequal a ha b hb halike
    exact halike.eq haction hsource

def firstRowDiagnostic (message : String) (source : Option String) (action : String) (hmessage : message ≠ "")
    (haction : action ≠ "") : Diagnostic where
  code := "C"
  severity := .error
  message := message
  action := action
  stage := .classify
  source := source
  position := some ⟨some 0, none, by decide⟩
  witness := none
  code_ne := by decide
  message_ne := hmessage
  action_ne := haction
  located := by simp

theorem isValid_firstRowDiagnostic : (firstRowDiagnostic message source action hmessage haction).IsValid :=
  Diagnostic.isValid_iff.mpr ⟨.null, rfl⟩

def repeatedDiagnostics : List Diagnostic :=
  [firstRowDiagnostic "n" none "a" (by decide) (by decide),
    firstRowDiagnostic "m" (some "") "b" (by decide) (by decide),
    firstRowDiagnostic "n" none "a" (by decide) (by decide)]

theorem forall_sort_eq_repeatedDiagnostics :
    (∀ d ∈ repeatedDiagnostics, d.IsValid) ∧
      ∀ ds', ds'.Perm repeatedDiagnostics → Diagnostic.sort ds' = Diagnostic.sort repeatedDiagnostics := by
  have hvalid : ∀ d ∈ repeatedDiagnostics, d.IsValid := by
    simp [repeatedDiagnostics, isValid_firstRowDiagnostic]
  refine ⟨hvalid, (forall_sort_eq_iff_alike repeatedDiagnostics hvalid).mpr ?_⟩
  intro a ha b hb halike
  have hmessage := halike.message
  simp only [repeatedDiagnostics, List.mem_cons, List.not_mem_nil, or_false] at ha hb
  rcases ha with rfl | rfl | rfl <;> rcases hb with rfl | rfl | rfl <;> simp [firstRowDiagnostic] at hmessage ⊢

def actionPair : List Diagnostic :=
  [firstRowDiagnostic "m" (some "s") "b" (by decide) (by decide),
    firstRowDiagnostic "m" (some "s") "a" (by decide) (by decide)]

def sourcePair : List Diagnostic :=
  [firstRowDiagnostic "m" none "a" (by decide) (by decide),
    firstRowDiagnostic "m" (some "") "a" (by decide) (by decide)]

theorem not_forall_sort_eq :
    (∀ d ∈ actionPair, d.IsValid) ∧
      ¬ (∀ ds', ds'.Perm actionPair → Diagnostic.sort ds' = Diagnostic.sort actionPair) ∧
      (∀ d ∈ sourcePair, d.IsValid) ∧
      ¬ (∀ ds', ds'.Perm sourcePair → Diagnostic.sort ds' = Diagnostic.sort sourcePair) := by
  -- Each of these pairs keeps the order that it comes in.
  refine ⟨by simp [actionPair, isValid_firstRowDiagnostic], ?_, by simp [sourcePair, isValid_firstRowDiagnostic], ?_⟩
  . intro hsort
    have hequal := Diagnostic.eq_of_sort_eq hsort List.mem_cons_self (List.mem_cons_of_mem _ List.mem_cons_self) rfl
    simp [firstRowDiagnostic] at hequal
  . intro hsort
    have hequal := Diagnostic.eq_of_sort_eq hsort List.mem_cons_self (List.mem_cons_of_mem _ List.mem_cons_self) rfl
    simp [firstRowDiagnostic] at hequal

namespace Diagnostic

variable {fs : List Finding}

theorem exists_finding_of_mapM {ds : List Diagnostic} (h : fs.mapM build = .ok ds) :
    ∀ d ∈ ds, ∃ f ∈ fs, build f = .ok d := by
  induction fs generalizing ds with
  | nil =>
    cases h
    intro d hd
    cases hd
  | cons f rest ih =>
    obtain ⟨d, ds, hd, hds, rfl⟩ := mapM_cons_eq_ok_iff.mp h
    rw [List.forall_mem_cons]
    constructor
    . exact ⟨f, List.mem_cons_self, hd⟩
    . intro d' hmem
      obtain ⟨f', hf', hbuild⟩ := ih hds d' hmem
      exact ⟨f', List.mem_cons_of_mem f hf', hbuild⟩

theorem eq_of_getD_eq {s s' : Option String} (hs : s ≠ some "") (hs' : s' ≠ some "") (h : s.getD "" = s'.getD "") :
    s = s' := by
  cases s with
  | none =>
    cases s' with
    | none => rfl
    | some t' => exact absurd (congrArg some h.symm) hs'
  | some t =>
    cases s' with
    | none => exact absurd (congrArg some h) hs
    | some t' => exact congrArg some h

theorem sort_eq_of_build (hbuild : fs.mapM build = .ok ds) (hnull : ∀ f ∈ fs, f.action = .null) (hperm : ds'.Perm ds) :
    sort ds' = sort ds := by
  have hfinding := exists_finding_of_mapM hbuild
  have hvalid : ∀ d ∈ ds, d.IsValid := by
    intro d hd
    obtain ⟨f, -, hf⟩ := hfinding d hd
    exact isValid_of_build hf
  apply (sort_eq_of_perm hperm.symm _).symm
  intro a ha b hb hkey
  have halike := alike_of_key_eq (hvalid a ha) (hvalid b hb) hkey
  obtain ⟨f, hf, hfa⟩ := hfinding a ha
  obtain ⟨g, hg, hgb⟩ := hfinding b hb
  have haction := (reports_of_build hfa).action_of_null (hnull f hf)
  rw [halike.code, (reports_of_build hgb).action_of_null (hnull g hg)] at haction
  have hsource := eq_of_getD_eq (reports_of_build hfa).named (reports_of_build hgb).named halike.source
  exact halike.eq (Option.some.inj haction).symm hsource

end Diagnostic

namespace Solution

theorem action_of_mem_findings (s : Solution n) : ∀ f ∈ s.findings, f.action = .null := by
  have hcontradiction : ∀ f ∈ s.contradictionFindings, f.action = .null := by
    simp [contradictionFindings]
  have hsingular : ∀ f ∈ s.singularFindings, f.action = .null := by
    unfold singularFindings
    dsimp only
    split <;> simp
  have hresidual : ∀ f ∈ s.residualFindings, f.action = .null := by
    unfold residualFindings
    split
    next => simp
    next =>
      dsimp only
      split <;> simp
  have hwarning : ∀ f ∈ s.warningFindings, f.action = .null := by
    simp [warningFindings]
  intro f hf
  simp only [findings, List.mem_append] at hf
  rcases hf with (hf | hf) | hf
  . split at hf
    next => exact hcontradiction f hf
    next =>
      split at hf
      next => exact hsingular f hf
      next => cases hf
  . exact hresidual f hf
  . exact hwarning f hf

theorem diagnostics_eq_sort_of_perm {s : Solution n} (hbuild : s.findings.mapM Diagnostic.build = .ok ds)
    (hperm : ds'.Perm ds) : s.diagnostics = .ok (Diagnostic.sort ds') := by
  have hsort := Diagnostic.sort_eq_of_build hbuild s.action_of_mem_findings hperm
  unfold diagnostics
  rw [hbuild, hsort]
  rfl

end Solution

end RowSweep
