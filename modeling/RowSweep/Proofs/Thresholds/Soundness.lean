import RowSweep.Proofs.Thresholds.Checks

/-!
This module contains what a document of thresholds has to be like: a list of checks that are made one after the other.
A document gives thresholds exactly if it passes all of them. They are then what the document describes, and sound.
-/

namespace RowSweep

/-!
### Sound settings
-/

structure SweepSettings.IsSound (s : SweepSettings) : Prop where
  zeroSnap_isFinite : s.zeroSnap.isFinite = true
  zeroSnap_nonneg : 0 ≤ s.zeroSnap.toRat
  zeroSnap_lt_one : s.zeroSnap.toRat < 1

structure ResidualBands.IsSound (bands : ResidualBands) : Prop where
  epsilon_isFinite : bands.epsilon.isFinite = true
  passMax_isFinite : bands.passMax.isFinite = true
  degradedMax_isFinite : bands.degradedMax.isFinite = true
  failMinExclusive_isFinite : bands.failMinExclusive.isFinite = true
  epsilon_nonneg : 0 ≤ bands.epsilon.toRat
  passMax_le : bands.passMax.toRat ≤ bands.degradedMax.toRat
  degradedMax_eq : bands.degradedMax.toRat = bands.failMinExclusive.toRat

structure ConditionPolicy.IsSound (policy : ConditionPolicy) : Prop where
  estimatorId_ne : policy.estimatorId ≠ ""
  unavailableCode_ne : policy.unavailableCode ≠ ""
  illConditionedCode_ne : policy.illConditionedCode ≠ ""
  warnMax_isFinite : policy.warnMax.isFinite = true

structure Thresholds.IsSound (t : Thresholds) : Prop where
  sweep : t.sweep.IsSound
  residual : t.residual.IsSound
  condition : t.condition.IsSound
  expectedUnknowns : ∀ size ∈ t.expectedUnknowns, 1 ≤ size

/-!
### Described settings
-/

namespace Thresholds

def contractPath : List String := ["numeric_contract"]

def eliminationPath : List String := contractPath ++ ["elimination"]

def residualPath : List String := contractPath ++ ["residual"]

def statusBandsPath : List String := residualPath ++ ["status_bands"]

def conditionPath : List String := contractPath ++ ["condition_indicator"]

def estimatorPath : List String := conditionPath ++ ["estimator"]

def unavailablePath : List String := estimatorPath ++ ["unavailable_policy"]

def conditionBandsPath : List String := conditionPath ++ ["bands"]

def defaultsPath : List String := ["solver_defaults"]

def blockPaths : List (List String) :=
  [contractPath, eliminationPath, residualPath, statusBandsPath, conditionPath, estimatorPath, unavailablePath,
    conditionBandsPath, defaultsPath]

end Thresholds

namespace Document

open Thresholds

structure DescribesSweep (d : Document) (s : SweepSettings) : Prop where
  zeroSnap : d.findNumber? (eliminationPath ++ ["zero_snap_relative"]) = some s.zeroSnap
  integerRatio : d.find? (eliminationPath ++ ["integer_ratio_enabled"]) = some (.boolean s.integerRatio)
  pairwisePivoting : d.find? (eliminationPath ++ ["pairwise_pivoting_enabled"]) = some (.boolean s.pairwisePivoting)

structure DescribesBands (d : Document) (bands : ResidualBands) : Prop where
  epsilon : d.findNumber? (residualPath ++ ["relative_epsilon"]) = some bands.epsilon
  passMax : d.findNumber? (statusBandsPath ++ ["pass_max"]) = some bands.passMax
  degradedMax : d.findNumber? (statusBandsPath ++ ["degraded_max"]) = some bands.degradedMax
  failMinExclusive : d.findNumber? (statusBandsPath ++ ["fail_min_exclusive"]) = some bands.failMinExclusive

structure DescribesCondition (d : Document) (policy : ConditionPolicy) : Prop where
  estimatorId : d.find? (estimatorPath ++ ["id"]) = some (.text policy.estimatorId)
  unavailableCode : d.find? (unavailablePath ++ ["warning_code"]) = some (.text policy.unavailableCode)
  illConditionedCode : d.find? (conditionBandsPath ++ ["warning_code"]) = some (.text policy.illConditionedCode)
  warnMax : d.findNumber? (conditionBandsPath ++ ["warn_max"]) = some policy.warnMax

structure Describes (d : Document) (t : Thresholds) : Prop where
  sweep : d.DescribesSweep t.sweep
  residual : d.DescribesBands t.residual
  condition : d.DescribesCondition t.condition
  expectedUnknowns : d.find? (defaultsPath ++ ["expected_unknowns"]) = some (t.expectedUnknowns.elim .null .integer)

def relates (d : Document) (r : Binary64 → Binary64 → Bool) (path path' : List String) : Bool :=
  match d.findNumber? path, d.findNumber? path' with
  | some x, some y => r x y
  | _, _ => false

end Document

/-!
### Checks of the blocks
-/

namespace Thresholds

open Binary64 (eqv_iff_toRat_eq isFinite_one isFinite_zero le_eq_false_iff lt_eq_false_iff toRat_one toRat_zero)

def sweepChecks : List Check :=
  [.field .mapping contractPath "elimination",
    .field .number eliminationPath "zero_snap_relative",
    .field .truth eliminationPath "integer_ratio_enabled",
    .field .truth eliminationPath "pairwise_pivoting_enabled",
    .rule .zeroSnapRange fun d =>
      (d.findNumber? (eliminationPath ++ ["zero_snap_relative"])).any fun x => x.lt .zero || Binary64.one.le x]

def residualChecks : List Check :=
  [.field .mapping contractPath "residual",
    .field .mapping residualPath "status_bands",
    .field .number residualPath "relative_epsilon",
    .field .number statusBandsPath "pass_max",
    .field .number statusBandsPath "degraded_max",
    .field .number statusBandsPath "fail_min_exclusive",
    .rule .negativeEpsilon fun d => (d.findNumber? (residualPath ++ ["relative_epsilon"])).any (·.lt .zero),
    .rule .bandOrder fun d =>
      d.relates Binary64.lt (statusBandsPath ++ ["degraded_max"]) (statusBandsPath ++ ["pass_max"]),
    .rule .bandGap fun d =>
      d.relates (fun x y => !x.eqv y) (statusBandsPath ++ ["fail_min_exclusive"]) (statusBandsPath ++ ["degraded_max"])]

def conditionChecks : List Check :=
  [.field .mapping contractPath "condition_indicator",
    .field .mapping conditionPath "estimator",
    .field .mapping estimatorPath "unavailable_policy",
    .field .mapping conditionPath "bands",
    .field .text estimatorPath "id",
    .field .text unavailablePath "warning_code",
    .field .text conditionBandsPath "warning_code",
    .field .number conditionBandsPath "warn_max"]

def checks : List Check :=
  .root :: .field .mapping [] "numeric_contract" :: (sweepChecks ++ (residualChecks ++ (conditionChecks ++
    [.field .mapping [] "solver_defaults", .field .positive defaultsPath "expected_unknowns"])))

variable {document : Document} {block : Block}

theorem follows_sweepSettings (h : document.find? contractPath = some (.mapping block)) :
    Follows document sweepChecks (sweepSettings block) fun s => document.DescribesSweep s ∧ s.IsSound := by
  unfold sweepChecks sweepSettings
  apply (follows_mapping h).step
  intro entries (hentries : document.find? eliminationPath = some (.mapping entries))
  apply (follows_number hentries).step
  intro zeroSnap hzeroSnap
  apply (follows_truth hentries).step
  intro integerRatio hintegerRatio
  apply (follows_truth hentries).step
  intro pairwisePivoting hpairwisePivoting
  apply Follows.guard
  . rw [hzeroSnap.left, Option.any_some]
  . intro hrange
    apply Follows.pure
    rw [Bool.or_eq_false_iff, lt_eq_false_iff hzeroSnap.right isFinite_zero, toRat_zero,
      le_eq_false_iff isFinite_one hzeroSnap.right, toRat_one] at hrange
    exact ⟨⟨hzeroSnap.left, hintegerRatio, hpairwisePivoting⟩, hzeroSnap.right, hrange.left, hrange.right⟩

theorem follows_residualBands (h : document.find? contractPath = some (.mapping block)) :
    Follows document residualChecks (residualBands block)
      fun bands => document.DescribesBands bands ∧ bands.IsSound := by
  unfold residualChecks residualBands
  apply (follows_mapping h).step
  intro entries (hentries : document.find? residualPath = some (.mapping entries))
  apply (follows_mapping hentries).step
  intro bands (hbands : document.find? statusBandsPath = some (.mapping bands))
  apply (follows_number hentries).step
  intro epsilon hepsilon
  apply (follows_number hbands).step
  intro passMax hpassMax
  apply (follows_number hbands).step
  intro degradedMax hdegradedMax
  apply (follows_number hbands).step
  intro failMinExclusive hfailMinExclusive
  apply Follows.guard
  . rw [hepsilon.left, Option.any_some]
  intro hnegative
  apply Follows.guard
  . rw [Document.relates, hdegradedMax.left, hpassMax.left]
  intro horder
  apply Follows.guard
  . rw [Document.relates, hfailMinExclusive.left, hdegradedMax.left]
  intro hgap
  apply Follows.pure
  rw [lt_eq_false_iff hepsilon.right isFinite_zero, toRat_zero] at hnegative
  rw [lt_eq_false_iff hdegradedMax.right hpassMax.right] at horder
  rw [Bool.not_eq_false', eqv_iff_toRat_eq hfailMinExclusive.right hdegradedMax.right] at hgap
  exact ⟨⟨hepsilon.left, hpassMax.left, hdegradedMax.left, hfailMinExclusive.left⟩, hepsilon.right, hpassMax.right,
    hdegradedMax.right, hfailMinExclusive.right, hnegative, horder, hgap.symm⟩

theorem follows_conditionPolicy (h : document.find? contractPath = some (.mapping block)) :
    Follows document conditionChecks (conditionPolicy block)
      fun policy => document.DescribesCondition policy ∧ policy.IsSound := by
  unfold conditionChecks conditionPolicy
  apply (follows_mapping h).step
  intro entries (hentries : document.find? conditionPath = some (.mapping entries))
  apply (follows_mapping hentries).step
  intro estimator (hestimator : document.find? estimatorPath = some (.mapping estimator))
  apply (follows_mapping hestimator).step
  intro unavailable (hunavailable : document.find? unavailablePath = some (.mapping unavailable))
  apply (follows_mapping hentries).step
  intro bands (hbands : document.find? conditionBandsPath = some (.mapping bands))
  apply (follows_text hestimator).step
  intro estimatorId hestimatorId
  apply (follows_text hunavailable).step
  intro unavailableCode hunavailableCode
  apply (follows_text hbands).step
  intro illConditionedCode hillConditionedCode
  apply (follows_number hbands).step
  intro warnMax hwarnMax
  apply Follows.pure
  exact ⟨⟨hestimatorId.left, hunavailableCode.left, hillConditionedCode.left, hwarnMax.left⟩, hestimatorId.right,
    hunavailableCode.right, hillConditionedCode.right, hwarnMax.right⟩

theorem follows_ofDocument (document : Document) (artifact : String) :
    Follows document checks (ofDocument document artifact)
      fun t => document.Describes t ∧ t.IsSound ∧ t.artifact = artifact := by
  cases document with
  | mapping root =>
    have hroot : (Document.mapping root).find? [] = some (.mapping root) := rfl
    unfold checks ofDocument
    apply Follows.skip rfl
    apply (follows_mapping hroot).step
    intro contract (hcontract : (Document.mapping root).find? contractPath = some (.mapping contract))
    apply (follows_sweepSettings hcontract).bind
    intro sweep hsweep
    apply (follows_residualBands hcontract).bind
    intro residual hresidual
    apply (follows_conditionPolicy hcontract).bind
    intro condition hcondition
    apply (follows_mapping hroot).step
    intro defaults (hdefaults : (Document.mapping root).find? defaultsPath = some (.mapping defaults))
    apply (follows_positive hdefaults).step
    intro expectedUnknowns hexpected
    apply Follows.pure
    exact ⟨⟨hsweep.left, hresidual.left, hcondition.left, hexpected.left⟩,
      ⟨hsweep.right, hresidual.right, hcondition.right, hexpected.right⟩, rfl⟩
  | _ => rfl

end Thresholds

/-!
### Documents that pass
-/

namespace Document

open Thresholds
open Binary64 (eqv_iff_toRat_eq isFinite_one isFinite_zero le_eq_false_iff lt_eq_false_iff toRat_one toRat_zero)

variable {d : Document} {t t' : Thresholds}

theorem exists_mapping_of_findNumber? {path : List String} {key : String} {v : Binary64}
    (h : d.findNumber? (path ++ [key]) = some v) : ∃ block, d.find? path = some (.mapping block) := by
  obtain ⟨value, hvalue, -⟩ := Option.bind_eq_some_iff.mp h
  exact exists_mapping_of_find?_concat hvalue

theorem Describes.exists_mapping (h : d.Describes t) :
    ∀ path ∈ [] :: blockPaths, ∃ block, d.find? path = some (.mapping block) := by
  obtain ⟨elimination, helimination⟩ := exists_mapping_of_findNumber? h.sweep.zeroSnap
  obtain ⟨statusBands, hstatusBands⟩ := exists_mapping_of_findNumber? h.residual.passMax
  obtain ⟨residual, hresidual⟩ := exists_mapping_of_find?_concat hstatusBands
  obtain ⟨unavailable, hunavailable⟩ := exists_mapping_of_find?_concat h.condition.unavailableCode
  obtain ⟨estimator, hestimator⟩ := exists_mapping_of_find?_concat hunavailable
  obtain ⟨condition, hcondition⟩ := exists_mapping_of_find?_concat hestimator
  obtain ⟨conditionBands, hconditionBands⟩ := exists_mapping_of_findNumber? h.condition.warnMax
  obtain ⟨contract, hcontract⟩ := exists_mapping_of_find?_concat hcondition
  obtain ⟨defaults, hdefaults⟩ := exists_mapping_of_find?_concat h.expectedUnknowns
  have hroot : ∃ root, d.find? [] = some (.mapping root) := exists_mapping_of_find?_concat hdefaults
  obtain ⟨root, hroot⟩ := hroot
  simp only [blockPaths, List.forall_mem_cons]
  exact ⟨⟨_, hroot⟩, ⟨_, hcontract⟩, ⟨_, helimination⟩, ⟨_, hresidual⟩, ⟨_, hstatusBands⟩, ⟨_, hcondition⟩,
    ⟨_, hestimator⟩, ⟨_, hunavailable⟩, ⟨_, hconditionBands⟩, ⟨_, hdefaults⟩, nofun⟩

theorem DescribesSweep.passes {s : SweepSettings} (h : d.DescribesSweep s) (hs : s.IsSound) :
    ∀ check ∈ sweepChecks, check.fault? d = none := by
  obtain ⟨elimination, helimination⟩ := exists_mapping_of_findNumber? h.zeroSnap
  simp only [sweepChecks, List.forall_mem_cons]
  refine ⟨fault?_mapping helimination, fault?_number h.zeroSnap hs.zeroSnap_isFinite, fault?_truth h.integerRatio,
    fault?_truth h.pairwisePivoting, fault?_rule ?_, nofun⟩
  rw [h.zeroSnap, Option.any_some, Bool.or_eq_false_iff, lt_eq_false_iff hs.zeroSnap_isFinite isFinite_zero, toRat_zero,
    le_eq_false_iff isFinite_one hs.zeroSnap_isFinite, toRat_one]
  exact ⟨hs.zeroSnap_nonneg, hs.zeroSnap_lt_one⟩

theorem DescribesBands.passes {bands : ResidualBands} (h : d.DescribesBands bands) (hs : bands.IsSound) :
    ∀ check ∈ residualChecks, check.fault? d = none := by
  obtain ⟨residual, hresidual⟩ := exists_mapping_of_findNumber? h.epsilon
  obtain ⟨statusBands, hstatusBands⟩ := exists_mapping_of_findNumber? h.passMax
  simp only [residualChecks, List.forall_mem_cons]
  refine ⟨fault?_mapping hresidual, fault?_mapping hstatusBands, fault?_number h.epsilon hs.epsilon_isFinite,
    fault?_number h.passMax hs.passMax_isFinite, fault?_number h.degradedMax hs.degradedMax_isFinite,
    fault?_number h.failMinExclusive hs.failMinExclusive_isFinite, fault?_rule ?_, fault?_rule ?_, fault?_rule ?_,
    nofun⟩
  . rw [h.epsilon, Option.any_some, lt_eq_false_iff hs.epsilon_isFinite isFinite_zero, toRat_zero]
    exact hs.epsilon_nonneg
  . rw [relates, h.degradedMax, h.passMax]
    exact (lt_eq_false_iff hs.degradedMax_isFinite hs.passMax_isFinite).mpr hs.passMax_le
  . rw [relates, h.failMinExclusive, h.degradedMax]
    change (!bands.failMinExclusive.eqv bands.degradedMax) = false
    rw [Bool.not_eq_false', eqv_iff_toRat_eq hs.failMinExclusive_isFinite hs.degradedMax_isFinite]
    exact hs.degradedMax_eq.symm

theorem DescribesCondition.passes {policy : ConditionPolicy} (h : d.DescribesCondition policy) (hs : policy.IsSound) :
    ∀ check ∈ conditionChecks, check.fault? d = none := by
  obtain ⟨unavailable, hunavailable⟩ := exists_mapping_of_find?_concat h.unavailableCode
  obtain ⟨estimator, hestimator⟩ := exists_mapping_of_find?_concat hunavailable
  obtain ⟨condition, hcondition⟩ := exists_mapping_of_find?_concat hestimator
  obtain ⟨conditionBands, hconditionBands⟩ := exists_mapping_of_findNumber? h.warnMax
  simp only [conditionChecks, List.forall_mem_cons]
  exact ⟨fault?_mapping hcondition, fault?_mapping hestimator, fault?_mapping hunavailable,
    fault?_mapping hconditionBands, fault?_text h.estimatorId hs.estimatorId_ne,
    fault?_text h.unavailableCode hs.unavailableCode_ne, fault?_text h.illConditionedCode hs.illConditionedCode_ne,
    fault?_number h.warnMax hs.warnMax_isFinite, nofun⟩

theorem Describes.passes (h : d.Describes t) (hs : t.IsSound) : ∀ check ∈ checks, check.fault? d = none := by
  obtain ⟨elimination, helimination⟩ := exists_mapping_of_findNumber? h.sweep.zeroSnap
  obtain ⟨contract, hcontract⟩ := exists_mapping_of_find?_concat helimination
  obtain ⟨defaults, hdefaults⟩ := exists_mapping_of_find?_concat h.expectedUnknowns
  have hroot : ∃ root, d.find? [] = some (.mapping root) := exists_mapping_of_find?_concat hdefaults
  obtain ⟨root, hroot⟩ := hroot
  simp only [checks, List.forall_mem_cons, List.forall_mem_append]
  refine ⟨?_, fault?_mapping hcontract, h.sweep.passes hs.sweep, h.residual.passes hs.residual,
    h.condition.passes hs.condition, fault?_mapping hdefaults, fault?_positive h.expectedUnknowns hs.expectedUnknowns,
    nofun⟩
  cases hroot
  rfl

theorem DescribesSweep.eq {s s' : SweepSettings} (h : d.DescribesSweep s) (h' : d.DescribesSweep s') : s = s' := by
  have hzeroSnap := h.zeroSnap.symm.trans h'.zeroSnap
  have hintegerRatio := h.integerRatio.symm.trans h'.integerRatio
  have hpairwisePivoting := h.pairwisePivoting.symm.trans h'.pairwisePivoting
  cases s
  simp_all

theorem DescribesBands.eq {bands bands' : ResidualBands} (h : d.DescribesBands bands) (h' : d.DescribesBands bands') :
    bands = bands' := by
  have hepsilon := h.epsilon.symm.trans h'.epsilon
  have hpassMax := h.passMax.symm.trans h'.passMax
  have hdegradedMax := h.degradedMax.symm.trans h'.degradedMax
  have hfailMinExclusive := h.failMinExclusive.symm.trans h'.failMinExclusive
  cases bands
  simp_all

theorem DescribesCondition.eq {policy policy' : ConditionPolicy} (h : d.DescribesCondition policy)
    (h' : d.DescribesCondition policy') : policy = policy' := by
  have hestimatorId := h.estimatorId.symm.trans h'.estimatorId
  have hunavailableCode := h.unavailableCode.symm.trans h'.unavailableCode
  have hillConditionedCode := h.illConditionedCode.symm.trans h'.illConditionedCode
  have hwarnMax := h.warnMax.symm.trans h'.warnMax
  cases policy
  simp_all

theorem elim_integer_injective : Function.Injective fun k : Option Int => k.elim Document.null .integer := by
  intro k k' h
  cases k <;> cases k' <;> simp_all

theorem Describes.eq (h : d.Describes t) (h' : d.Describes t') (hartifact : t.artifact = t'.artifact) : t = t' := by
  have hsweep := h.sweep.eq h'.sweep
  have hresidual := h.residual.eq h'.residual
  have hcondition := h.condition.eq h'.condition
  have hexpected := elim_integer_injective (Option.some.inj (h.expectedUnknowns.symm.trans h'.expectedUnknowns))
  cases t
  simp_all

end Document

namespace Thresholds

open Document

theorem ofDocument_eq_ok_iff {document : Document} {artifact : String} {t : Thresholds} :
    ofDocument document artifact = .ok t ↔ document.Describes t ∧ t.IsSound ∧ t.artifact = artifact := by
  have hfollows := follows_ofDocument document artifact
  constructor
  . exact hfollows.of_eq_ok
  . intro h
    obtain ⟨hdescribes, hsound, hartifact⟩ := h
    obtain ⟨t', ht'⟩ := hfollows.exists_ok_iff.mpr (firstFault?_eq_none_iff.mpr (hdescribes.passes hsound))
    obtain ⟨hdescribes', -, hartifact'⟩ := hfollows.of_eq_ok ht'
    rw [ht', hdescribes.eq hdescribes' (hartifact.trans hartifact'.symm)]

theorem ofDocument_eq_outOfRange_iff (document : Document) (artifact : String) :
    ofDocument document artifact = .error .outOfRange ↔
      ∃ before path key after i, checks = before ++ .field .number path key :: after ∧
        (∀ check ∈ before, check.fault? document = none) ∧
        document.find? (path ++ [key]) = some (.integer i) ∧ Binary64.integerRangeEnd ≤ i.natAbs := by
  rw [(follows_ofDocument document artifact).eq_error_iff, firstFault?, List.findSome?_eq_some_iff]
  constructor
  . intro h
    obtain ⟨before, check, after, hchecks, hfault, hbefore⟩ := h
    obtain ⟨path, key, i, rfl, hvalue, hrange⟩ := fault?_eq_outOfRange_iff.mp hfault
    exact ⟨before, path, key, after, i, hchecks, hbefore, hvalue, hrange⟩
  . intro h
    obtain ⟨before, path, key, after, i, hchecks, hbefore, hvalue, hrange⟩ := h
    have hfault := fault?_eq_outOfRange_iff.mpr ⟨path, key, i, rfl, hvalue, hrange⟩
    exact ⟨before, _, after, hchecks, hfault, hbefore⟩

/-!
### The document of some thresholds
-/

def settingsWith (zeroSnap : Document) (t : Thresholds) : Document :=
  .mapping [
    ("numeric_contract", .mapping [
      ("elimination", .mapping [
        ("zero_snap_relative", zeroSnap),
        ("integer_ratio_enabled", .boolean t.sweep.integerRatio),
        ("pairwise_pivoting_enabled", .boolean t.sweep.pairwisePivoting)]),
      ("residual", .mapping [
        ("relative_epsilon", .real t.residual.epsilon),
        ("status_bands", .mapping [
          ("pass_max", .real t.residual.passMax),
          ("degraded_max", .real t.residual.degradedMax),
          ("fail_min_exclusive", .real t.residual.failMinExclusive)])]),
      ("condition_indicator", .mapping [
        ("estimator", .mapping [
          ("id", .text t.condition.estimatorId),
          ("unavailable_policy", .mapping [("warning_code", .text t.condition.unavailableCode)])]),
        ("bands", .mapping [
          ("warning_code", .text t.condition.illConditionedCode),
          ("warn_max", .real t.condition.warnMax)])])]),
    ("solver_defaults", .mapping [("expected_unknowns", t.expectedUnknowns.elim .null .integer)])]

def settings (t : Thresholds) : Document :=
  t.settingsWith (.real t.sweep.zeroSnap)

theorem describes_settings (t : Thresholds) : t.settings.Describes t where
  sweep := ⟨rfl, rfl, rfl⟩
  residual := ⟨rfl, rfl, rfl, rfl⟩
  condition := ⟨rfl, rfl, rfl, rfl⟩
  expectedUnknowns := rfl

theorem ofDocument_settings {t : Thresholds} (h : t.IsSound) : ofDocument t.settings t.artifact = .ok t :=
  ofDocument_eq_ok_iff.mpr ⟨describes_settings t, h, rfl⟩

theorem isSound_default : Thresholds.default.IsSound := by
  have hread : ofDocument Thresholds.default.settings Thresholds.default.artifact = .ok .default := by decide +kernel
  exact (ofDocument_eq_ok_iff.mp hread).right.left

end Thresholds

theorem thresholds_of_document (document : Document) (artifact : String) :
    (∀ t, Thresholds.ofDocument document artifact = .ok t ↔
      document.Describes t ∧ t.IsSound ∧ t.artifact = artifact) ∧
    (∀ t, Thresholds.ofDocument document artifact = .ok t →
      ∀ path ∈ [] :: Thresholds.blockPaths, ∃ block, document.find? path = some (.mapping block)) ∧
    (∀ e, Thresholds.ofDocument document artifact = .error e ↔
      Thresholds.firstFault? Thresholds.checks document = some e) ∧
    (Thresholds.ofDocument document artifact = .error .outOfRange ↔
      ∃ before path key after i, Thresholds.checks = before ++ .field .number path key :: after ∧
        (∀ check ∈ before, check.fault? document = none) ∧
        document.find? (path ++ [key]) = some (.integer i) ∧ Binary64.integerRangeEnd ≤ i.natAbs) ∧
    ((∀ path key, .field .number path key ∈ Thresholds.checks →
        ∀ i, document.find? (path ++ [key]) = some (.integer i) → i.natAbs < Binary64.integerRangeEnd) →
      (∃ t, Thresholds.ofDocument document artifact = .ok t) ∨
        ∃ fault, Thresholds.ofDocument document artifact = .error (.rejected fault)) := by
  have hfollows := Thresholds.follows_ofDocument document artifact
  have houtOfRange := Thresholds.ofDocument_eq_outOfRange_iff document artifact
  refine ⟨fun t => Thresholds.ofDocument_eq_ok_iff, ?_, hfollows.eq_error_iff, houtOfRange, ?_⟩
  . intro t ht
    apply (hfollows.of_eq_ok ht).left.exists_mapping
  . intro hrange
    cases hread : Thresholds.ofDocument document artifact with
    | ok t => exact Or.inl ⟨t, rfl⟩
    | error e =>
      cases e with
      | rejected fault => exact Or.inr ⟨fault, rfl⟩
      | outOfRange =>
        obtain ⟨before, path, key, after, i, hchecks, -, hvalue, hlong⟩ := houtOfRange.mp hread
        have hmem : .field .number path key ∈ Thresholds.checks := by simp [hchecks]
        have hshort := hrange path key hmem i hvalue
        omega

theorem not_rejected_of_long_integer :
    Thresholds.default.IsSound ∧
      ¬ ((∃ t, Thresholds.ofDocument (Thresholds.default.settingsWith (.integer (10 ^ 309))) "t.yaml" = .ok t) ∨
        ∃ fault, Thresholds.ofDocument (Thresholds.default.settingsWith (.integer (10 ^ 309))) "t.yaml" =
          .error (.rejected fault)) := by
  -- An integer of 310 digits makes an error of another kind, in a document that is sound otherwise.
  have hread : Thresholds.ofDocument (Thresholds.default.settingsWith (.integer (10 ^ 309))) "t.yaml" =
      .error .outOfRange := by
    decide +kernel
  refine ⟨Thresholds.isSound_default, ?_⟩
  rw [hread]
  simp

end RowSweep
