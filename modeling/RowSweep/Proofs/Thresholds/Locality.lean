import RowSweep.Proofs.Thresholds.Session

/-!
This module contains that the files of a session do not interfere. Two stores agree on some places if they
have the same files there and have loaded the same from there; a step on such a place keeps the agreement if
both make it, and a step on any other place keeps it even if only one does. So a load gives the same after a
session as after its steps on the loaded file alone, up to how it says that there is no way to the file.
-/

namespace RowSweep

namespace ThresholdStore

open RowSweep.Path (IsAbove)

structure Agrees (kept : Path → Prop) (s t : ThresholdStore) : Prop where
  yaml : s.yaml = t.yaml
  sound_left : s.folder.IsSound
  sound_right : t.folder.IsSound
  directories : s.folder.directories = t.folder.directories
  files : ∀ place, kept place → s.folder.files.lookup place = t.folder.files.lookup place
  loaded : ∀ place, kept place → s.loaded.lookup place = t.loaded.lookup place

variable {kept : Path → Prop} {s t : ThresholdStore} {step : StoreStep} {steps : List StoreStep}
  {file place : Path} {folder : Folder} {bytes : ByteArray}

namespace Agrees

theorem refl (h : s.folder.IsSound) : Agrees kept s s :=
  ⟨rfl, h, h, rfl, fun _ _ => rfl, fun _ _ => rfl⟩

theorem coarse_load (h : Agrees kept s t) (hfile : kept file.settle) :
    (s.load file).1.mapError LoadError.coarse = (t.load file).1.mapError LoadError.coarse := by
  cases hloaded : s.loaded.lookup file.settle with
  | some thresholds =>
    rw [load_of_loaded hloaded, load_of_loaded ((h.loaded _ hfile).symm.trans hloaded)]
  | none =>
    have hvisit : (s.folder.visit file.settle).coarse = (t.folder.visit file.settle).coarse := by
      refine Folder.coarse_visit_congr h.sound_left h.sound_right h.directories ?_
      rw [Path.settle_settle]
      exact h.files _ hfile
    rw [load_of_not_loaded hloaded, load_of_not_loaded ((h.loaded _ hfile).symm.trans hloaded),
      Thresholds.coarse_load, hvisit, ← Thresholds.coarse_load, h.yaml]

theorem load_eq (h : Agrees kept s t) (hfile : kept file.settle)
    (habove : ∀ r, IsAbove r file.settle → s.folder.files.lookup r = t.folder.files.lookup r) :
    (s.load file).1 = (t.load file).1 := by
  cases hloaded : s.loaded.lookup file.settle with
  | some thresholds =>
    rw [load_of_loaded hloaded, load_of_loaded ((h.loaded _ hfile).symm.trans hloaded)]
  | none =>
    rw [load_of_not_loaded hloaded, load_of_not_loaded ((h.loaded _ hfile).symm.trans hloaded),
      Folder.visit_settle_congr h.sound_left h.sound_right h.directories (h.files _ hfile) habove, h.yaml]

theorem perform_left_of_not (h : Agrees kept s t) (hstep : ¬kept step.place) :
    Agrees kept (s.perform step) t := by
  have hne : ∀ place, kept place → place ≠ step.place := fun place hplace heq => hstep (heq ▸ hplace)
  refine ⟨yaml_perform.trans h.yaml, changes_perform.isSound h.sound_left, h.sound_right, ?_, fun place hplace => ?_,
    fun place hplace => ?_⟩
  . rw [changes_perform.directories_eq, h.directories]
  . rw [changes_perform.lookup_of_ne (hne place hplace), h.files place hplace]
  . rw [lookup_loaded_perform_of_ne (hne place hplace), h.loaded place hplace]

theorem lookup_files_perform (h : Agrees kept s t) (hstep : kept step.place) :
    (s.perform step).folder.files.lookup step.place = (t.perform step).folder.files.lookup step.place := by
  classical
  have hfile := h.files _ hstep
  have hreach : ∀ p place, s.folder.reach p = .ok place ↔ t.folder.reach p = .ok place := fun p place =>
    Folder.reach_eq_ok_congr h.sound_left h.sound_right h.directories
  cases step with
  | write file bytes =>
    have hdir : s.folder.isDirectory file.settle ↔ t.folder.isDirectory file.settle :=
      Folder.isDirectory_congr h.sound_left h.sound_right h.directories
    simp only [StoreStep.place] at hfile ⊢
    simp only [lookup_files_perform_write, hfile, hreach, hdir]
  | erase file =>
    -- Whether the file can be taken away depends on the file itself, but on no other.
    have hlook := Folder.look_congr h.sound_left h.sound_right h.directories hfile
    simp only [StoreStep.place] at hfile hlook ⊢
    simp only [lookup_files_perform_erase, hfile, hlook, hreach]
  | load file => rw [ThresholdStore.perform, ThresholdStore.perform, folder_load, folder_load, hfile]

theorem lookup_loaded_perform (h : Agrees kept s t) (hstep : kept step.place) :
    (s.perform step).loaded.lookup step.place = (t.perform step).loaded.lookup step.place := by
  cases step with
  | write file bytes => rw [loaded_perform_write, loaded_perform_write, h.loaded _ hstep]
  | erase file => rw [loaded_perform_erase, loaded_perform_erase, h.loaded _ hstep]
  | load file =>
    have hoption : (s.load file).1.toOption = (t.load file).1.toOption := by
      rw [← toOption_mapError, h.coarse_load hstep, toOption_mapError]
    rw [ThresholdStore.perform, ThresholdStore.perform, lookup_loaded_load, lookup_loaded_load, hoption,
      h.loaded _ hstep]

theorem perform (h : Agrees kept s t) (hstep : kept step.place) :
    Agrees kept (s.perform step) (t.perform step) := by
  refine ⟨(yaml_perform.trans h.yaml).trans yaml_perform.symm, changes_perform.isSound h.sound_left,
    changes_perform.isSound h.sound_right, ?_, fun place hplace => ?_, fun place hplace => ?_⟩
  . rw [changes_perform.directories_eq, changes_perform.directories_eq, h.directories]
  . by_cases heq : place = step.place
    . rw [heq, h.lookup_files_perform hstep]
    . rw [changes_perform.lookup_of_ne heq, changes_perform.lookup_of_ne heq, h.files place hplace]
  . by_cases heq : place = step.place
    . rw [heq, h.lookup_loaded_perform hstep]
    . rw [lookup_loaded_perform_of_ne heq, lookup_loaded_perform_of_ne heq, h.loaded place hplace]

theorem run [DecidablePred kept] (h : Agrees kept s t) (steps : List StoreStep) :
    Agrees kept (s.run steps) (t.run (steps.filter fun step => kept step.place)) := by
  induction steps generalizing s t with
  | nil => exact h
  | cons step steps ih =>
    -- Only the left store makes the steps on other places.
    rw [run_cons]
    by_cases hstep : kept step.place
    . rw [List.filter_cons_of_pos (by simpa using hstep), run_cons]
      exact ih (h.perform hstep)
    . rw [List.filter_cons_of_neg (by simpa using hstep)]
      exact ih (h.perform_left_of_not hstep)

end Agrees

end ThresholdStore

open ThresholdStore in
theorem thresholds_of_session (yaml : Reader) (folder : Folder) (steps : List StoreStep) (file : Path) :
    let start := ofFolder yaml folder
    let own := steps.filter fun step => step.place = file.settle
    (∀ t, start.Gave steps file.settle t → start.answer steps file = .ok t) ∧
    ((∀ t, ¬start.Gave steps file.settle t) →
      start.answer steps file =
        Thresholds.load yaml file.settle.text ((start.run steps).folder.visit file.settle) ∧
      (∀ name bytes s, name.settle = file.settle → (start.run steps).write name (.ofBytes bytes) = .ok s →
        start.answer (steps ++ [.write name bytes]) file =
          Thresholds.load yaml file.settle.text (.ofBytes bytes)) ∧
      (folder.IsSound → ∀ name s, name.settle = file.settle → (start.run steps).erase name = .ok s →
        start.answer (steps ++ [.erase name]) file =
          .error (.rejected (.unreadable file.settle.text .missing)))) ∧
    (∀ e, start.answer steps file = .error e → start.run (steps ++ [.load file]) = start.run steps) ∧
    (folder.IsSound →
      (start.answer steps file).mapError LoadError.coarse = (start.answer own file).mapError LoadError.coarse ∧
      ((∀ step ∈ steps, ¬step.place.IsAbove file.settle) →
        start.answer steps file = start.answer own file)) := by
  intro start own
  refine ⟨fun t => answer_of_gave, fun hnone => ⟨?_, ?_, ?_⟩, ?_, fun hsound => ?_⟩
  . rw [answer, load_of_not_loaded (lookup_loaded_run_eq_none hnone), yaml_run]
    rfl
  . exact fun name bytes s hname => answer_concat_write hnone hname
  . exact fun hsound name s hname => answer_concat_erase hnone hsound hname
  . intro e herror
    rw [run_concat]
    exact load_of_error herror
  . have hagrees : Agrees (· = file.settle) (start.run steps) (start.run own) :=
      Agrees.run (Agrees.refl (s := start) hsound) steps
    refine ⟨hagrees.coarse_load rfl, fun habove => hagrees.load_eq rfl fun r hr => ?_⟩
    -- No step was on a place above the file, so both sessions have left these places alone.
    have hne : ∀ step ∈ steps, step.place ≠ r := fun step hstep heq => habove step hstep (heq ▸ hr)
    rw [lookup_files_run_of_ne hne, lookup_files_run_of_ne fun step hstep => hne step (List.mem_of_mem_filter hstep)]

open ThresholdStore in
theorem thresholds_of_writtenFile :
    let start := ofFolder Libraries.standard.yaml .standard
    let file : Path := ⟨"", ["t.yaml"]⟩
    let bytes := strictFile.toUTF8
    start.answer [] file = .error (.rejected (.unreadable "t.yaml" .missing)) ∧
      start.answer [.load file, .write file bytes] file = .ok strictThresholds ∧
      start.answer [.load file, .write file bytes, .load file, .erase file] ⟨"", ["x", "..", "t.yaml"]⟩ =
        .ok strictThresholds ∧
      start.answer [.write ⟨"", ["u.yaml"]⟩ bytes, .load file, .write file bytes] file = .ok strictThresholds := by
  -- A file that is missing at first is written and loaded. It keeps its thresholds when it is gone, under any
  -- name, and also if another file has been written before.
  intro start file bytes
  have hmissing : start.answer [] file = .error (.rejected (.unreadable "t.yaml" .missing)) := by
    decide +kernel
  obtain ⟨-, -, htraceless, -⟩ := thresholds_of_session Libraries.standard.yaml .standard [] file
  have hfailed : start.run [.load file] = start := htraceless _ hmissing
  have hnone : ∀ t, ¬start.Gave [.load file] file.settle t := by
    intro t hgave
    rw [← List.nil_append [_], gave_concat_iff] at hgave
    obtain ⟨before, _, after, hsteps, -⟩ | ⟨_, hload, -, hanswer⟩ := hgave
    . simp at hsteps
    . cases hload
      simp [hmissing] at hanswer
  have hput : Folder.standard.put file (.ofBytes bytes) = .ok (Folder.standard.write file (.ofBytes bytes)) :=
    Folder.put_eq_ok_iff.mpr ⟨by decide +kernel, by decide +kernel, rfl⟩
  have hsucceeds : ∃ s, (start.run [.load file]).write file (.ofBytes bytes) = .ok s := by
    rw [hfailed]
    exact ⟨_, write_eq_ok_iff.mpr ⟨_, hput, rfl⟩⟩
  have hwritten : start.answer [.load file, .write file bytes] file = .ok strictThresholds := by
    obtain ⟨-, hfresh, -⟩ := thresholds_of_session Libraries.standard.yaml .standard [.load file] file
    obtain ⟨-, hwrite, -⟩ := hfresh hnone
    obtain ⟨s, hsucceeds⟩ := hsucceeds
    refine (hwrite file bytes s rfl hsucceeds).trans ?_
    rw [FileContent.ofBytes_toUTF8]
    exact load_strictFile
  have hgave : start.Gave [.load file, .write file bytes, .load file, .erase file] file.settle strictThresholds :=
    ⟨[.load file, .write file bytes], file, [.erase file], rfl, rfl, hwritten⟩
  obtain ⟨hkept, -, -, -⟩ := thresholds_of_session Libraries.standard.yaml .standard
    [.load file, .write file bytes, .load file, .erase file] ⟨"", ["x", "..", "t.yaml"]⟩
  obtain ⟨-, -, -, hlocal⟩ := thresholds_of_session Libraries.standard.yaml .standard
    [.write ⟨"", ["u.yaml"]⟩ bytes, .load file, .write file bytes] file
  refine ⟨hmissing, hwritten, hkept _ hgave, ?_⟩
  obtain ⟨-, hequal⟩ := hlocal Folder.isSound_standard
  exact (hequal (by decide +kernel)).trans hwritten

open ThresholdStore in
theorem not_answer_of_own :
    let start := ofFolder Libraries.standard.yaml .standard
    let file : Path := ⟨"", ["a", "b"]⟩
    (⟨"", ["a"]⟩ : Path).settle ≠ file.settle ∧
      start.answer [.write ⟨"", ["a"]⟩ .empty] file = .error (.rejected (.unreadable "a/b" .notDirectory)) ∧
      start.answer [] file = .error (.rejected (.unreadable "a/b" .missing)) ∧
      (LoadFault.unreadable "a/b" .notDirectory).message ≠ (LoadFault.unreadable "a/b" .missing).message := by
  -- A file where a directory is looked for changes what is said about the file in that directory.
  decide +kernel

end RowSweep
