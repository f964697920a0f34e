import Mathlib.Data.List.Induction
import RowSweep.Libraries.Standard
import RowSweep.Proofs.File.Folder
import RowSweep.Thresholds.Store

/-!
This module contains what sessions with threshold files come to. In a session files are written, taken away
and loaded in any order, and what has been loaded once stays. So the store has loaded exactly what the loads of
the session gave, and a load of any other file reads what is in it by then.
-/

namespace RowSweep

inductive StoreStep where
  | write (file : Path) (bytes : ByteArray)
  | erase (file : Path)
  | load (file : Path)

def StoreStep.place : StoreStep → Path
  | write file _ => file.settle
  | erase file => file.settle
  | load file => file.settle

def LoadError.coarse : LoadError → LoadError
  | rejected (.unreadable name problem) => rejected (.unreadable name problem.coarse)
  | e => e

theorem FileContent.ofBytes_toUTF8 (content : String) : ofBytes content.toUTF8 = text content := by
  have hvalid : String.fromUTF8? content.toUTF8 = some content := dif_pos content.isValidUTF8
  simp only [ofBytes, hvalid]

theorem Thresholds.coarse_load (yaml : Reader) (name : String) (content : FileContent) :
    (load yaml name content).mapError LoadError.coarse =
      (load yaml name content.coarse).mapError LoadError.coarse := by
  cases content with
  | text s => rfl
  | undecodable => rfl
  | unreadable problem => cases problem <;> rfl

theorem Thresholds.load_standard {name text : String} {thresholds : Thresholds}
    (h : (Yaml.readCharacters text.toList).toOption.bind (fun document => (ofDocument document name).toOption) =
      some thresholds) :
    load Libraries.standard.yaml name (.text text) = .ok thresholds := by
  obtain ⟨document, hread, hthresholds⟩ := Option.bind_eq_some_iff.mp h
  rw [toOption_eq_some_iff] at hread hthresholds
  have hyaml : Libraries.standard.yaml.read text = .ok document := hread
  unfold load ofText
  simp only [hyaml, hthresholds]

namespace ThresholdStore

open RowSweep.Path (IsAbove)

def perform (s : ThresholdStore) : StoreStep → ThresholdStore
  | .write file bytes => (s.write file (.ofBytes bytes)).toOption.getD s
  | .erase file => (s.erase file).toOption.getD s
  | .load file => (s.load file).2

def run (s : ThresholdStore) (steps : List StoreStep) : ThresholdStore :=
  steps.foldl perform s

def answer (s : ThresholdStore) (steps : List StoreStep) (file : Path) : Except LoadError Thresholds :=
  ((s.run steps).load file).1

def Gave (s : ThresholdStore) (steps : List StoreStep) (place : Path) (t : Thresholds) : Prop :=
  ∃ before file after, steps = before ++ .load file :: after ∧ file.settle = place ∧
    s.answer before file = .ok t

variable {s s' : ThresholdStore} {step : StoreStep} {steps : List StoreStep} {file place q : Path}
  {yaml : Reader} {folder : Folder} {bytes : ByteArray} {content : FileContent} {t : Thresholds}

@[simp] theorem run_nil : s.run [] = s :=
  rfl

@[simp] theorem run_cons : s.run (step :: steps) = (s.perform step).run steps :=
  rfl

@[simp] theorem run_concat : s.run (steps ++ [step]) = (s.run steps).perform step :=
  List.foldl_concat ..

theorem write_eq_ok_iff : s.write file content = .ok s' ↔
    ∃ folder, s.folder.put file content = .ok folder ∧ { s with folder := folder } = s' := by
  unfold write
  rw [bind_eq_ok_iff]
  simp [pure, Except.pure]

theorem erase_eq_ok_iff : s.erase file = .ok s' ↔
    ∃ folder, s.folder.remove file = .ok folder ∧ { s with folder := folder } = s' := by
  unfold erase
  rw [bind_eq_ok_iff]
  simp [pure, Except.pure]

theorem perform_write_of_ok (h : s.write file (.ofBytes bytes) = .ok s') :
    s.perform (.write file bytes) = s' := by
  rw [perform, h]
  rfl

theorem perform_erase_of_ok (h : s.erase file = .ok s') : s.perform (.erase file) = s' := by
  rw [perform, h]
  rfl

theorem perform_write_cases (s : ThresholdStore) (file : Path) (bytes : ByteArray) :
    (∃ folder, s.folder.put file (.ofBytes bytes) = .ok folder ∧
      s.perform (.write file bytes) = { s with folder := folder }) ∨
    ((∀ folder, s.folder.put file (.ofBytes bytes) ≠ .ok folder) ∧ s.perform (.write file bytes) = s) := by
  simp only [perform]
  cases hput : s.folder.put file (.ofBytes bytes) with
  | ok folder =>
    rw [write_eq_ok_iff.mpr ⟨folder, hput, rfl⟩]
    exact .inl ⟨folder, rfl, rfl⟩
  | error problem =>
    cases hwrite : s.write file (.ofBytes bytes) with
    | ok s' => simp [write_eq_ok_iff, hput] at hwrite
    | error problem => exact .inr ⟨by simp, rfl⟩

theorem perform_erase_cases (s : ThresholdStore) (file : Path) :
    (∃ folder, s.folder.remove file = .ok folder ∧
      s.perform (.erase file) = { s with folder := folder }) ∨
    ((∀ folder, s.folder.remove file ≠ .ok folder) ∧ s.perform (.erase file) = s) := by
  simp only [perform]
  cases hremove : s.folder.remove file with
  | ok folder =>
    rw [erase_eq_ok_iff.mpr ⟨folder, hremove, rfl⟩]
    exact .inl ⟨folder, rfl, rfl⟩
  | error problem =>
    cases herase : s.erase file with
    | ok s' => simp [erase_eq_ok_iff, hremove] at herase
    | error problem => exact .inr ⟨by simp, rfl⟩

theorem load_of_loaded (h : s.loaded.lookup file.settle = some t) : s.load file = (.ok t, s) := by
  simp only [load, h]

theorem load_cases (s : ThresholdStore) (file : Path) :
    (∃ t, s.loaded.lookup file.settle = some t ∧ s.load file = (.ok t, s)) ∨
    (∃ t, s.loaded.lookup file.settle = none ∧
      Thresholds.load s.yaml file.settle.text (s.folder.visit file.settle) = .ok t ∧
      s.load file = (.ok t, { s with loaded := (file.settle, t) :: s.loaded })) ∨
    (∃ e, s.loaded.lookup file.settle = none ∧
      Thresholds.load s.yaml file.settle.text (s.folder.visit file.settle) = .error e ∧
      s.load file = (.error e, s)) := by
  cases hloaded : s.loaded.lookup file.settle with
  | some t => exact .inl ⟨t, rfl, load_of_loaded hloaded⟩
  | none =>
    cases hload : Thresholds.load s.yaml file.settle.text (s.folder.visit file.settle) with
    | ok t => exact .inr (.inl ⟨t, rfl, rfl, by simp only [load, hloaded, hload]⟩)
    | error e => exact .inr (.inr ⟨e, rfl, rfl, by simp only [load, hloaded, hload]⟩)

theorem load_of_not_loaded (h : s.loaded.lookup file.settle = none) :
    (s.load file).1 = Thresholds.load s.yaml file.settle.text (s.folder.visit file.settle) := by
  obtain ⟨t, hsome, -⟩ | ⟨t, -, hload, heq⟩ | ⟨e, -, hload, heq⟩ := load_cases s file
  . simp [h] at hsome
  . rw [heq, hload]
  . rw [heq, hload]

theorem yaml_load : (s.load file).2.yaml = s.yaml := by
  obtain ⟨t, -, heq⟩ | ⟨t, -, -, heq⟩ | ⟨e, -, -, heq⟩ := load_cases s file <;> rw [heq]

theorem folder_load : (s.load file).2.folder = s.folder := by
  obtain ⟨t, -, heq⟩ | ⟨t, -, -, heq⟩ | ⟨e, -, -, heq⟩ := load_cases s file <;> rw [heq]

theorem load_of_error (h : (s.load file).1 = .error e) : (s.load file).2 = s := by
  obtain ⟨t, -, heq⟩ | ⟨t, -, -, heq⟩ | ⟨e, -, -, heq⟩ := load_cases s file
  . rw [heq]
  . simp [heq] at h
  . rw [heq]

theorem lookup_loaded_load : (s.load file).2.loaded.lookup q =
    if q = file.settle then (s.load file).1.toOption else s.loaded.lookup q := by
  obtain ⟨t, hloaded, heq⟩ | ⟨t, -, -, heq⟩ | ⟨e, hloaded, -, heq⟩ := load_cases s file
  . rw [heq]
    split_ifs with hq
    . rw [hq, hloaded]
      rfl
    . rfl
  . rw [heq, List.lookup_cons]
    split_ifs with hq
    . simp [hq, Except.toOption]
    . rw [beq_false_of_ne hq]
  . rw [heq]
    split_ifs with hq
    . rw [hq, hloaded]
      rfl
    . rfl

theorem lookup_files_perform_write : (s.perform (.write file bytes)).folder.files.lookup file.settle =
    if s.folder.reach file = .ok file.settle ∧ ¬s.folder.isDirectory file.settle
      then some (.ofBytes bytes) else s.folder.files.lookup file.settle := by
  obtain ⟨folder, hput, heq⟩ | ⟨hput, heq⟩ := perform_write_cases s file bytes
  . obtain ⟨hreach, hdir, rfl⟩ := Folder.put_eq_ok_iff.mp hput
    rw [if_pos ⟨hreach, hdir⟩, heq]
    exact Folder.lookup_write_self
  . rw [if_neg fun h => hput _ (Folder.put_eq_ok_iff.mpr ⟨h.1, h.2, rfl⟩), heq]

open scoped Classical in
theorem lookup_files_perform_erase : (s.perform (.erase file)).folder.files.lookup file.settle =
    if s.folder.reach file = .ok file.settle ∧ (s.folder.look file.settle).IsReadable
      then none else s.folder.files.lookup file.settle := by
  obtain ⟨folder, hremove, heq⟩ | ⟨hremove, heq⟩ := perform_erase_cases s file
  . obtain ⟨hreach, hlook, rfl⟩ := Folder.remove_eq_ok_iff.mp hremove
    rw [if_pos ⟨hreach, hlook⟩, heq]
    exact Folder.lookup_erase_self
  . rw [if_neg fun h => hremove _ (Folder.remove_eq_ok_iff.mpr ⟨h.1, h.2, rfl⟩), heq]

theorem loaded_perform_write : (s.perform (.write file bytes)).loaded = s.loaded := by
  obtain ⟨folder, -, heq⟩ | ⟨-, heq⟩ := perform_write_cases s file bytes <;> rw [heq]

theorem loaded_perform_erase : (s.perform (.erase file)).loaded = s.loaded := by
  obtain ⟨folder, -, heq⟩ | ⟨-, heq⟩ := perform_erase_cases s file <;> rw [heq]

theorem yaml_perform : (s.perform step).yaml = s.yaml := by
  cases step with
  | write file bytes => obtain ⟨folder, -, heq⟩ | ⟨-, heq⟩ := perform_write_cases s file bytes <;> rw [heq]
  | erase file => obtain ⟨folder, -, heq⟩ | ⟨-, heq⟩ := perform_erase_cases s file <;> rw [heq]
  | load file => exact yaml_load

theorem yaml_run : (s.run steps).yaml = s.yaml := by
  induction steps generalizing s with
  | nil => rfl
  | cons step steps ih => rw [run_cons, ih, yaml_perform]

theorem lookup_loaded_perform_of_ne (h : q ≠ step.place) :
    (s.perform step).loaded.lookup q = s.loaded.lookup q := by
  cases step with
  | write file bytes => rw [loaded_perform_write]
  | erase file => rw [loaded_perform_erase]
  | load file => exact lookup_loaded_load.trans (if_neg h)

theorem changes_perform : s.folder.Changes step.place (s.perform step).folder := by
  cases step with
  | write file bytes =>
    obtain ⟨folder, hput, heq⟩ | ⟨-, heq⟩ := perform_write_cases s file bytes
    . rw [heq]
      exact .put rfl FileContent.isReadable_ofBytes hput
    . rw [heq]
      exact .kept
  | erase file =>
    obtain ⟨folder, hremove, heq⟩ | ⟨-, heq⟩ := perform_erase_cases s file
    . rw [heq]
      exact .removed rfl hremove
    . rw [heq]
      exact .kept
  | load file =>
    rw [perform, folder_load]
    exact .kept

theorem lookup_files_run_of_ne (h : ∀ step ∈ steps, step.place ≠ q) :
    (s.run steps).folder.files.lookup q = s.folder.files.lookup q := by
  induction steps generalizing s with
  | nil => rfl
  | cons step steps ih =>
    rw [run_cons, ih fun step' hstep => h step' (List.mem_cons_of_mem _ hstep),
      changes_perform.lookup_of_ne (h step List.mem_cons_self).symm]

theorem isSound_run (h : s.folder.IsSound) : (s.run steps).folder.IsSound := by
  induction steps generalizing s with
  | nil => exact h
  | cons step steps ih => exact ih (changes_perform.isSound h)

theorem gave_concat_iff : s.Gave (steps ++ [step]) place t ↔
    s.Gave steps place t ∨ ∃ file, step = .load file ∧ file.settle = place ∧ s.answer steps file = .ok t := by
  constructor
  . rintro ⟨before, file, after, hsteps, hplace, hanswer⟩
    rcases List.eq_nil_or_concat after with rfl | ⟨after, last, rfl⟩
    . obtain ⟨rfl, hstep⟩ := List.append_inj' hsteps rfl
      exact .inr ⟨file, List.head_eq_of_cons_eq hstep, hplace, hanswer⟩
    . rw [List.concat_eq_append, ← List.cons_append, ← List.append_assoc] at hsteps
      exact .inl ⟨before, file, after, (List.append_inj' hsteps rfl).1, hplace, hanswer⟩
  . rintro (⟨before, file, after, rfl, hplace, hanswer⟩ | ⟨file, rfl, hplace, hanswer⟩)
    . exact ⟨before, file, after ++ [step], by simp, hplace, hanswer⟩
    . exact ⟨steps, file, [], rfl, hplace, hanswer⟩

theorem lookup_loaded_run :
    ((ofFolder yaml folder).run steps).loaded.lookup place = some t ↔ (ofFolder yaml folder).Gave steps place t := by
  -- The store has loaded exactly what the loads of the session gave.
  -- From the end: the last step is made by the store to which the others have led.
  induction steps using List.reverseRecOn with
  | nil => simp [Gave, ofFolder]
  | append_singleton steps step ih =>
    rw [run_concat, gave_concat_iff, ← ih]
    cases step with
    | write file bytes => simp [loaded_perform_write]
    | erase file => simp [loaded_perform_erase]
    | load file =>
      rw [perform, lookup_loaded_load]
      split_ifs with hplace
      . subst hplace
        rw [toOption_eq_some_iff]
        constructor
        . exact fun h => .inr ⟨file, rfl, rfl, h⟩
        . rintro (hloaded | ⟨file', hfile, -, h⟩)
          . rw [load_of_loaded hloaded]
          . cases hfile
            exact h
      . constructor
        . exact .inl
        . rintro (h | ⟨file', hfile, hsettle, -⟩)
          . exact h
          . cases hfile
            exact absurd hsettle.symm hplace

theorem answer_of_gave (h : (ofFolder yaml folder).Gave steps file.settle t) :
    (ofFolder yaml folder).answer steps file = .ok t := by
  rw [answer, load_of_loaded (lookup_loaded_run.mpr h)]

theorem lookup_loaded_run_eq_none (h : ∀ t, ¬(ofFolder yaml folder).Gave steps place t) :
    ((ofFolder yaml folder).run steps).loaded.lookup place = none := by
  cases hloaded : ((ofFolder yaml folder).run steps).loaded.lookup place with
  | none => rfl
  | some t => exact absurd (lookup_loaded_run.mp hloaded) (h t)

theorem answer_concat_write {name : Path} (h : ∀ t, ¬(ofFolder yaml folder).Gave steps file.settle t)
    (hname : name.settle = file.settle)
    (hwrite : ((ofFolder yaml folder).run steps).write name (.ofBytes bytes) = .ok s) :
    (ofFolder yaml folder).answer (steps ++ [.write name bytes]) file =
      Thresholds.load yaml file.settle.text (.ofBytes bytes) := by
  rw [answer, run_concat, perform_write_of_ok hwrite]
  obtain ⟨folder', hput, rfl⟩ := write_eq_ok_iff.mp hwrite
  rw [load_of_not_loaded]
  . rw [← hname, Folder.visit_put hput, yaml_run]
    rfl
  . exact lookup_loaded_run_eq_none h

theorem answer_concat_erase {name : Path} (h : ∀ t, ¬(ofFolder yaml folder).Gave steps file.settle t)
    (hsound : folder.IsSound) (hname : name.settle = file.settle)
    (herase : ((ofFolder yaml folder).run steps).erase name = .ok s) :
    (ofFolder yaml folder).answer (steps ++ [.erase name]) file =
      .error (.rejected (.unreadable file.settle.text .missing)) := by
  rw [answer, run_concat, perform_erase_of_ok herase]
  obtain ⟨folder', hremove, rfl⟩ := erase_eq_ok_iff.mp herase
  rw [load_of_not_loaded]
  . rw [← hname, Folder.visit_remove (isSound_run hsound) hremove]
    rfl
  . exact lookup_loaded_run_eq_none h

end ThresholdStore

/--
A threshold file without tolerances. Its remark about an ill-conditioned system has the code of cells that are
not finite, and no system is conditioned better than its bound.
-/
def strictFile : String :=
  "numeric_contract:\n" ++
  "  elimination:\n" ++
  "    zero_snap_relative: 0\n" ++
  "    integer_ratio_enabled: true\n" ++
  "    pairwise_pivoting_enabled: true\n" ++
  "  residual:\n" ++
  "    relative_epsilon: 0\n" ++
  "    status_bands:\n" ++
  "      pass_max: 0\n" ++
  "      degraded_max: 0\n" ++
  "      fail_min_exclusive: 0\n" ++
  "  condition_indicator:\n" ++
  "    estimator:\n" ++
  "      id: lu_rcond_proxy_v1\n" ++
  "      unavailable_policy:\n" ++
  "        warning_code: W_NUM_COND_UNAVAILABLE\n" ++
  "    bands:\n" ++
  "      warn_max: 1\n" ++
  "      warning_code: E_INPUT_NONFINITE\n" ++
  "solver_defaults:\n" ++
  "  expected_unknowns: null\n"

def strictThresholds : Thresholds where
  sweep := ⟨.zero, true, true⟩
  residual := ⟨.zero, .zero, .zero, .zero⟩
  condition := ⟨"lu_rcond_proxy_v1", "W_NUM_COND_UNAVAILABLE", "E_INPUT_NONFINITE", .one⟩
  expectedUnknowns := none
  artifact := "t.yaml"

set_option maxRecDepth 4000 in
theorem load_strictFile :
    Thresholds.load Libraries.standard.yaml "t.yaml" (.text strictFile) = .ok strictThresholds := by
  apply Thresholds.load_standard
  unfold strictFile
  simp only [String.toList_append, String.reduceToList, List.cons_append, List.nil_append]
  decide +kernel

end RowSweep
