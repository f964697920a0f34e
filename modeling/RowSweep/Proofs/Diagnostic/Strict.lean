import RowSweep.Proofs.Diagnostic.Remarks
import RowSweep.Proofs.Diagnostic.Sort
import RowSweep.Proofs.Json.Strict
import RowSweep.Proofs.Solver.PivotProduct

/-!
This module contains which diagnostics of a solution carry strict data. Relative residuals and condition indicators that
are not finite are left out, so nothing but the pivot product of an inconsistent system can be in the way.
-/

namespace RowSweep

attribute [local irreducible] Binary64.unitsPerOne

open Document (Every IsStrict)
open Json (IsName)

namespace Evidence

variable {p : Binary64 → Prop} {q : String → Prop} {witness : Option Document}

theorem every_witness_mapping {entries : List (String × Evidence)} (hkeys : ∀ entry ∈ entries, q entry.1)
    (hvalues : ∀ entry ∈ entries, ∀ document, entry.2.plain = .ok document → document.Every p q)
    (h : (mapping (entries.map fun (key, e) => (.text key, e))).witness = .ok witness) :
    ∀ document ∈ witness, document.Every p q := by
  obtain ⟨stored, hstored, rfl⟩ := map_eq_ok_iff.mp h
  rw [plain, plainEntries_map] at hstored
  obtain ⟨found, hfound, hstored⟩ := bind_eq_ok_iff.mp hstored
  cases hfound
  obtain ⟨sorted, hsorted, hstored⟩ := bind_eq_ok_iff.mp hstored
  cases hstored
  have hentry : ∀ entry ∈ sorted, ∃ e, (entry.1, e) ∈ entries ∧ e.plain = .ok entry.2 := by
    intro entry hmem
    have hmem : (entry.1, .ok entry.2) ∈ Document.sortEntries (entries.map fun (key, e) => (key, e.plain)) := by
      rw [eq_map_of_mapM hsorted]
      exact List.mem_map_of_mem hmem
    have hmem := Document.mem_sortEntries hmem
    simpa using hmem
  intro document hdocument
  cases hdocument
  apply Every.mapping
  . intro entry hmem
    obtain ⟨e, he, -⟩ := hentry entry hmem
    exact hkeys _ he
  . intro entry hmem
    obtain ⟨e, he, hplain⟩ := hentry entry hmem
    exact hvalues _ he _ hplain

def IsStrict (e : Evidence) : Prop :=
  ∀ witness, e.witness = .ok witness → ∀ document ∈ witness, document.Every (·.isFinite = true) IsName

theorem isStrict_mapping (entries : List (String × Evidence)) (hkeys : ∀ entry ∈ entries, IsName entry.1)
    (hvalues : ∀ entry ∈ entries, ∀ document, entry.2.plain = .ok document →
      document.Every (·.isFinite = true) IsName) :
    IsStrict (mapping (entries.map fun (key, e) => (.text key, e))) :=
  fun _ h => every_witness_mapping hkeys hvalues h

theorem isStrict_single {key : String} {e : Evidence} (hkey : IsName key)
    (he : ∀ document, e.plain = .ok document → document.Every (·.isFinite = true) IsName) :
    IsStrict (mapping [(.text key, e)]) := by
  apply isStrict_mapping [(key, e)]
  . simpa using hkey
  . simpa using he

theorem every_plain_real {x : Binary64} (hx : p x) :
    ∀ document, (real x).plain = .ok document → document.Every p q := by
  intro document h
  cases h
  exact .real x hx

theorem every_plain_null : ∀ document, null.plain = .ok document → document.Every p q := by
  intro document h
  cases h
  exact .null

theorem every_plain_integers (ks : List Nat) :
    ∀ document, (list (ks.map fun (k : Nat) => integer k)).plain = .ok document → document.Every p q := by
  intro document h
  rw [plain, plainItems_integers] at h
  cases h
  apply Every.sequence
  simp [Every.integer]

end Evidence

namespace Solution

open Evidence

variable {s : Solution n}

theorem isStrict_singularFindings : ∀ f ∈ s.singularFindings, f.witness.IsStrict := by
  have hcolumns : ∀ ks document, (indices ks).plain = .ok document → document.Every (·.isFinite = true) IsName := by
    intro ks
    apply every_plain_integers
  have hsingular : ∀ ks free, Evidence.IsStrict (.mapping [(.text "basis_columns", indices ks),
      (.text "free_columns", indices free)]) := by
    intro ks free
    apply isStrict_mapping [("basis_columns", indices ks), ("free_columns", indices free)]
    . have hbasis : IsName "basis_columns" := by decide
      have hfree : IsName "free_columns" := by decide
      simp [hbasis, hfree]
    . simp only [List.forall_mem_cons]
      exact ⟨hcolumns ks, hcolumns free, nofun⟩
  have hincomplete : ∀ ks, Evidence.IsStrict (.mapping [(.text "basis_columns", indices ks)]) := by
    intro ks
    apply isStrict_single
    . decide
    . apply hcolumns
  unfold singularFindings
  dsimp only
  split <;> simp [hsingular, hincomplete]

theorem isStrict_residualFindings
    (hdegraded : ∀ metrics ∈ s.metrics, s.status = some .degraded → metrics.relative.isFinite = true) :
    ∀ f ∈ s.residualFindings, f.witness.IsStrict := by
  unfold residualFindings
  split
  next => nofun
  next metrics hmetrics =>
    dsimp only
    split
    next hstatus =>
      rw [List.forall_mem_singleton]
      apply isStrict_single
      . decide
      . apply every_plain_real
        exact hdegraded metrics hmetrics hstatus
    next =>
      rw [List.forall_mem_singleton]
      apply isStrict_single
      . decide
      . split
        next hfinite => exact every_plain_real hfinite
        next => exact every_plain_null
    next => nofun

theorem isStrict_warningFindings (hcondition : s.condition.isNaN = true ∨ s.condition.isFinite = true) :
    ∀ f ∈ s.warningFindings, f.witness.IsStrict := by
  unfold warningFindings
  rw [List.forall_mem_map]
  intro w _
  apply isStrict_single
  . decide
  . split
    next => exact every_plain_null
    next hnan =>
      apply every_plain_real
      exact hcondition.resolve_left hnan

theorem isStrict_of_mem_findings
    (hdegraded : ∀ metrics ∈ s.metrics, s.status = some .degraded → metrics.relative.isFinite = true)
    (hcondition : s.condition.isNaN = true ∨ s.condition.isFinite = true) {f : Finding} (hf : f ∈ s.findings) :
    s.consistent = false ∧ f ∈ s.contradictionFindings ∨ f.witness.IsStrict := by
  simp only [findings, List.mem_append] at hf
  rcases hf with (hf | hf) | hf
  . split at hf
    next hconsistent => exact Or.inl ⟨by simpa using hconsistent, hf⟩
    next =>
      split at hf
      next => exact Or.inr (isStrict_singularFindings f hf)
      next => cases hf
  . exact Or.inr (isStrict_residualFindings hdegraded f hf)
  . exact Or.inr (isStrict_warningFindings hcondition f hf)

theorem witness_of_mem_contradictionFindings {f : Finding} (hf : f ∈ s.contradictionFindings) :
    f.code = .text "E_SYS_INCONSISTENT" ∧
      f.witness.witness = .ok (some (.mapping [("pivot_product", .real s.pivotProduct)])) := by
  obtain ⟨i, -, rfl⟩ := List.mem_map.mp hf
  exact ⟨rfl, rfl⟩

theorem exists_finding {ds : List Diagnostic} (h : s.diagnostics = .ok ds) :
    ∀ d ∈ ds, ∃ f ∈ s.findings, Diagnostic.build f = .ok d := by
  obtain ⟨made, hmade, hsorted⟩ := bind_eq_ok_iff.mp h
  cases hsorted
  intro d hd
  rw [(Diagnostic.perm_sort made).mem_iff] at hd
  exact Diagnostic.exists_finding_of_mapM hmade d hd

theorem exists_diagnostic {ds : List Diagnostic} (h : s.diagnostics = .ok ds) :
    ∀ f ∈ s.findings, ∃ d ∈ ds, Diagnostic.build f = .ok d := by
  obtain ⟨made, hmade, hsorted⟩ := bind_eq_ok_iff.mp h
  cases hsorted
  intro f hf
  obtain ⟨d, hd, hbuild⟩ := exists_mem_of_mapM hmade f hf
  exact ⟨d, (Diagnostic.perm_sort made).mem_iff.mpr hd, hbuild⟩

theorem exists_diagnostic_of_contradiction {policy : ConditionPolicy} {ds : List Diagnostic} (hrated : s.IsRated policy)
    (h : s.diagnostics = .ok ds) (hconsistent : s.consistent = false) :
    ∃ d ∈ ds, d.witness = some (.mapping [("pivot_product", .real s.pivotProduct)]) := by
  obtain ⟨i, rest, hrows⟩ := List.exists_cons_of_ne_nil (hrated.contradictoryRows_ne_nil hconsistent)
  have hsome : ∃ f, f ∈ s.contradictionFindings := by
    unfold contradictionFindings
    rw [hrows]
    exact ⟨_, List.mem_cons_self⟩
  obtain ⟨f, hf⟩ := hsome
  have hmem : f ∈ s.findings := by
    simp [findings, hconsistent, hf]
  obtain ⟨d, hd, hbuild⟩ := exists_diagnostic h f hmem
  have hwitness := (Diagnostic.reports_of_build hbuild).witness
  rw [(witness_of_mem_contradictionFindings hf).right] at hwitness
  exact ⟨d, hd, (Except.ok.inj hwitness).symm⟩

end Solution

/-!
### The pivot product of a contradiction
-/

namespace Grid

theorem hasFullPivots_of_isConsistent {g : Grid n (n + 1)} (h : g.isConsistent = false) :
    g.hasFullPivots (Nat.le_refl n) = false := by
  -- A contradictory row has no pivot.
  obtain ⟨i, hi, hrow⟩ := isConsistent_eq_false_iff.mp h
  have hmissing : ∃ k : Fin n, (g.pivot (Nat.le_refl n) k).isZero = true := by
    have hplace : pivotRow (Nat.le_refl n) ⟨n - 1 - i, by omega⟩ = ⟨i, hi⟩ := by
      simp only [pivotRow, Fin.mk.injEq]
      omega
    refine ⟨⟨n - 1 - i, by omega⟩, ?_⟩
    rw [pivot, hplace]
    exact Row.isZero_of_isContradictory hrow _
  simpa [hasFullPivots] using hmissing

end Grid

namespace Solver

variable {s : Solver n} {sol : Solution n}

theorem isZero_pivotProduct_or_eq_nan (h : s.solve.outcome = .ok sol) (hconsistent : sol.consistent = false) :
    sol.pivotProduct.isZero = true ∨ sol.pivotProduct = .nan := by
  have hrates := rates_of_solve h
  rw [hrates.consistent_eq] at hconsistent
  obtain ⟨k, hk, -⟩ := Grid.exists_first_missing (Grid.hasFullPivots_of_isConsistent hconsistent)
  rw [hrates.pivotProduct_eq]
  exact (Grid.isZero_pivotProduct_iff k hk).left

theorem isZero_pivotProduct_of_atMost (h : s.solve.outcome = .ok sol) (hconsistent : sol.consistent = false)
    (hlow : 53 ≤ e) (hhigh : e < 1022) (hrange : e * (n - 1) ≤ 1023) (hmost : s.grid.AtMost (2 ^ e)) :
    sol.pivotProduct.isZero = true := by
  -- With room for the product of all but one of the magnitudes that were given, it is zero.
  have hrates := rates_of_solve h
  rw [hrates.consistent_eq] at hconsistent
  obtain ⟨k, hk, -⟩ := Grid.exists_first_missing (Grid.hasFullPivots_of_isConsistent hconsistent)
  have hgrid : sol.grid.Within (2 ^ e * Binary64.unitsPerOne) := by
    have hpow : (2 ^ e : ℚ) < 2 ^ 1022 := pow_lt_pow_right₀ one_lt_two hhigh
    obtain ⟨M, hM, hwithin, hmax⟩ := hmost.exists_isCellBound hpow
    rw [max_eq_left (pow_le_pow_right₀ one_le_two hlow)] at hmax
    have hle : M ≤ 2 ^ e * Binary64.unitsPerOne := by exact_mod_cast hmax
    intro i j
    exact (within_of_solve hM hwithin h i j).mono hle
  rw [hrates.pivotProduct_eq, (Grid.isZero_pivotProduct_iff k hk).right]
  exact ⟨hgrid.leadingProduct k hrange, fun j _ => (hgrid _ j.castSucc).isFinite⟩

end Solver

theorem ResidualBands.isFinite_of_degraded {bands : ResidualBands} {relative : Binary64}
    (h : bands.status? relative = some .degraded) : relative.isFinite = true := by
  unfold status? at h
  split at h
  next => cases h
  next hfinite => simpa using hfinite

theorem ConditionPolicy.isNaN_or_isFinite_judge (policy : ConditionPolicy) (estimate : Option Binary64) :
    (policy.judge estimate).1.isNaN = true ∨ (policy.judge estimate).1.isFinite = true := by
  unfold judge
  cases hestimate : estimate.filter (·.isFinite) with
  | none => exact Or.inl rfl
  | some indicator =>
    right
    dsimp only
    have hfinite : indicator.isFinite = true := (Option.filter_eq_some_iff.mp hestimate).right
    split
    next => exact hfinite
    next => exact hfinite

namespace Solver

variable {s : Solver n} {sol : Solution n}

theorem isFinite_of_degraded (h : s.solve.outcome = .ok sol) :
    ∀ metrics ∈ sol.metrics, sol.status = some .degraded → metrics.relative.isFinite = true := by
  have hrates := rates_of_solve h
  rw [hrates.metrics_eq, hrates.status_eq]
  intro metrics hmetrics hstatus
  obtain ⟨x, hx, rfl⟩ := Option.map_eq_some_iff.mp hmetrics
  rw [hx] at hstatus
  exact ResidualBands.isFinite_of_degraded hstatus

theorem isNaN_or_isFinite_condition (h : s.solve.outcome = .ok sol) :
    sol.condition.isNaN = true ∨ sol.condition.isFinite = true := by
  rw [(rates_of_solve h).condition_eq]
  apply ConditionPolicy.isNaN_or_isFinite_judge

theorem exists_diagnostics_of_default (hthresholds : s.thresholds = .default) (h : s.solve.outcome = .ok sol) :
    ∃ ds, sol.diagnostics = .ok ds := by
  have hcodes : ∀ code ∈ s.thresholds.condition.remarkCode? (s.estimator n s.given.coefficients),
      code ∈ Catalog.canonicalCodes := by
    rw [hthresholds]
    apply ConditionPolicy.forall_mem_remarkCode?
    . decide
    . decide
  obtain ⟨ds, hds, -⟩ := (isRated_of_solve h).exists_diagnostics (rates_of_solve h).warnings_eq hcodes
  exact ⟨ds, hds⟩

theorem every_witness (h : s.solve.outcome = .ok sol) {ds : List Diagnostic} (hds : sol.diagnostics = .ok ds)
    {d : Diagnostic} (hd : d ∈ ds) :
    (∀ w ∈ d.witness, w.Every (·.isFinite = true) IsName) ∨
      sol.consistent = false ∧ d.code = "E_SYS_INCONSISTENT" ∧
        d.witness = some (.mapping [("pivot_product", .real sol.pivotProduct)]) := by
  obtain ⟨f, hf, hbuild⟩ := Solution.exists_finding hds d hd
  have hreports := Diagnostic.reports_of_build hbuild
  cases Solution.isStrict_of_mem_findings (isFinite_of_degraded h) (isNaN_or_isFinite_condition h) hf with
  | inl hcontradiction =>
    obtain ⟨hcode, hwitness⟩ := Solution.witness_of_mem_contradictionFindings hcontradiction.right
    rw [hreports.code] at hcode
    rw [hreports.witness] at hwitness
    exact Or.inr ⟨hcontradiction.left, Evidence.text.inj hcode, Except.ok.inj hwitness⟩
  | inr hstrict => exact Or.inl (hstrict _ hreports.witness)

theorem isStrict_witness_iff (h : s.solve.outcome = .ok sol) {ds : List Diagnostic} (hds : sol.diagnostics = .ok ds)
    {d : Diagnostic} (hd : d ∈ ds) {w : Document} (hw : w ∈ d.witness) :
    w.IsStrict ↔ ¬ Json.HasWord (witnessText (some w)).toList := by
  have hplain : w.IsPlain := by
    obtain ⟨f, -, hbuild⟩ := Solution.exists_finding hds d hd
    exact (Diagnostic.isValid_of_build hbuild).isPlain w hw
  rw [witnessText, hplain.sortKeys_eq, Json.write, String.toList_ofList]
  cases every_witness h hds hd with
  | inl hstrict => exact Json.isStrict_iff_not_hasWord (hstrict w hw)
  | inr hcontradiction =>
    rw [hcontradiction.right.right] at hw
    cases hw
    have hnamed : (Document.mapping [("pivot_product", .real sol.pivotProduct)]).Every (fun _ => True) IsName := by
      have hname : IsName "pivot_product" := by decide
      apply Every.mapping
      . simpa using hname
      . simp [Every.real]
    exact Json.isStrict_iff_not_hasWord hnamed

theorem forall_isStrict_iff (h : s.solve.outcome = .ok sol) {ds : List Diagnostic} (hds : sol.diagnostics = .ok ds) :
    (∀ d ∈ ds, ∀ w ∈ d.witness, w.IsStrict) ↔ sol.consistent = true ∨ sol.pivotProduct.isZero = true := by
  constructor
  . intro hstrict
    rw [or_iff_not_imp_left, Bool.not_eq_true]
    intro hconsistent
    obtain ⟨d, hd, hwitness⟩ := Solution.exists_diagnostic_of_contradiction (isRated_of_solve h) hds hconsistent
    have hfinite := Document.isStrict_single_iff.mp (hstrict d hd _ hwitness)
    cases isZero_pivotProduct_or_eq_nan h hconsistent with
    | inl hzero => exact hzero
    | inr hnan =>
      rw [hnan] at hfinite
      cases hfinite
  . intro hcases d hd w hw
    cases every_witness h hds hd with
    | inl hevery => exact (hevery w hw).isStrict
    | inr hcontradiction =>
      obtain ⟨hconsistent, -, hwitness⟩ := hcontradiction
      rw [hwitness] at hw
      cases hw
      rw [Document.isStrict_single_iff]
      cases hcases with
      | inl hok =>
        rw [hconsistent] at hok
        cases hok
      | inr hzero => exact (Binary64.isZero_iff.mp hzero).left

end Solver

theorem isStrict_witnesses (system : LinearSystem) (numerics : Numerics) (estimator : Estimator)
    (sol : Solution system.size)
    (hsol : (Solver.ofSystem system .default numerics estimator).solve.outcome = .ok sol) :
    ∃ ds, sol.diagnostics = .ok ds ∧
      (∀ d ∈ ds, ∀ w ∈ d.witness, w.IsStrict ↔ ¬ Json.HasWord (witnessText (some w)).toList) ∧
      ((∀ d ∈ ds, ∀ w ∈ d.witness, w.IsStrict) ↔ sol.consistent = true ∨ sol.pivotProduct.isZero = true) ∧
      (∀ d ∈ ds, ∀ w ∈ d.witness, ¬ w.IsStrict →
        d.code = "E_SYS_INCONSISTENT" ∧ w = .mapping [("pivot_product", .real .nan)]) ∧
      ∀ e, 53 ≤ e → e < 1022 → e * (system.size - 1) ≤ 1023 → system.grid.AtMost (2 ^ e) →
        ∀ d ∈ ds, ∀ w ∈ d.witness, w.IsStrict := by
  obtain ⟨ds, hds⟩ := Solver.exists_diagnostics_of_default rfl hsol
  refine ⟨ds, hds, ?_, Solver.forall_isStrict_iff hsol hds, ?_, ?_⟩
  . intro d hd w hw
    exact Solver.isStrict_witness_iff hsol hds hd hw
  . intro d hd w hw hstrict
    cases Solver.every_witness hsol hds hd with
    | inl hevery => exact absurd (hevery w hw).isStrict hstrict
    | inr hcontradiction =>
      obtain ⟨hconsistent, hcode, hwitness⟩ := hcontradiction
      rw [hwitness] at hw
      cases hw
      rw [Document.isStrict_single_iff] at hstrict
      refine ⟨hcode, ?_⟩
      cases Solver.isZero_pivotProduct_or_eq_nan hsol hconsistent with
      | inl hzero => exact absurd (Binary64.isZero_iff.mp hzero).left hstrict
      | inr hnan => rw [hnan]
  . intro e hlow hhigh hrange hmost
    rw [Solver.forall_isStrict_iff hsol hds, or_iff_not_imp_left, Bool.not_eq_true]
    intro hconsistent
    exact Solver.isZero_pivotProduct_of_atMost hsol hconsistent hlow hhigh hrange hmost

def separateLines : LinearSystem :=
  ⟨2, #v[Vector.replicate 3 .one, (Vector.replicate 2 .one).push (.ofNat 3)], by decide, by decide +kernel⟩

theorem isStrict_witnesses_separateLines :
    ∃ sol ds, (Solver.ofSystem separateLines .default .standard Numerics.standard.estimator).solve.outcome = .ok sol ∧
      sol.consistent = false ∧ sol.diagnostics = .ok ds ∧ ∀ d ∈ ds, ∀ w ∈ d.witness, w.IsStrict := by
  have hmost : separateLines.grid.AtMost (2 ^ 53) := by decide +kernel
  have hresult :
      (Solver.ofSystem separateLines .default .standard Numerics.standard.estimator).solve.outcome.map
          (·.consistent) = .ok false := by
    decide +kernel
  obtain ⟨sol, hsol, hconsistent⟩ := map_eq_ok_iff.mp hresult
  obtain ⟨ds, hds, -, -, -, hstrict⟩ := isStrict_witnesses separateLines .standard Numerics.standard.estimator sol hsol
  exact ⟨sol, ds, hsol, hconsistent, hds, hstrict 53 (by decide) (by decide) (by decide) hmost⟩

def steepContradiction : LinearSystem :=
  let steep := (Decimal.mk 1 200).toBinary64 false
  ⟨3, (#v[Vector.replicate 3 .zero, #v[.zero, steep, .zero], #v[steep, .zero, .zero]] : Grid 3 3).map (·.push .one),
    Nat.succ_pos 2, by decide +kernel⟩

theorem not_isStrict_witness_steepContradiction :
    ∃ sol ds,
      (Solver.ofSystem steepContradiction .default .standard Numerics.standard.estimator).solve.outcome = .ok sol ∧
      sol.diagnostics = .ok ds ∧ ∃ d ∈ ds, ∃ w ∈ d.witness,
        ¬ w.IsStrict ∧ witnessText (some w) = "\x7b\"pivot_product\":NaN\x7d" := by
  -- Two pivots of `10 ^ 200` overflow before the missing one is reached.
  have hresult : (Solver.ofSystem steepContradiction .default .standard Numerics.standard.estimator).solve.outcome.map
      (fun sol => (sol.consistent, sol.pivotProduct)) = .ok (false, .nan) := by
    decide +kernel
  obtain ⟨sol, hsol, hvalues⟩ := map_eq_ok_iff.mp hresult
  obtain ⟨hconsistent, hproduct⟩ := Prod.mk.inj hvalues
  obtain ⟨ds, hds⟩ := Solver.exists_diagnostics_of_default rfl hsol
  obtain ⟨d, hd, hwitness⟩ :=
    Solution.exists_diagnostic_of_contradiction (Solver.isRated_of_solve hsol) hds hconsistent
  rw [hproduct] at hwitness
  refine ⟨sol, ds, hsol, hds, d, hd, _, hwitness, ?_, ?_⟩
  . rw [Document.isStrict_single_iff]
    decide
  . rfl

end RowSweep
