import RowSweep.File.Folder
import RowSweep.Proofs.Except
import RowSweep.Proofs.File.Path

/-!
This module contains what is found in a folder after a file has been put into it or taken out of it. The
directories of a folder stay; what is found under a path depends on the file at its place, and if there is no
way to it, on the file in which the way ends.
-/

namespace RowSweep

def FileProblem.coarse : FileProblem → FileProblem
  | notDirectory => missing
  | problem => problem

namespace FileContent

def coarse : FileContent → FileContent
  | unreadable problem => unreadable problem.coarse
  | content => content

def IsReadable (content : FileContent) : Prop :=
  ∀ problem, content ≠ unreadable problem

theorem isReadable_ofBytes : (ofBytes bytes).IsReadable := by
  intro problem
  unfold ofBytes
  split <;> simp

end FileContent

namespace Folder

open RowSweep.Path (IsAbove IsSettled)

variable {f f' g : Folder} {here place p q r : Path} {root part : String} {xs ys parts rest : List String}
  {content : FileContent}

structure IsSound (f : Folder) : Prop where
  lasting : ∀ file ∈ f.files, ∀ place, IsAbove place file.1 → f.isLasting place
  readable : ∀ file ∈ f.files, file.2.IsReadable

theorem isDirectory_iff :
    f.isDirectory place ↔ f.isLasting place ∨ ∃ file ∈ f.files, IsAbove place file.1 := by
  simp only [isDirectory, IsAbove, Bool.or_eq_true, List.any_eq_true, Bool.and_eq_true,
    decide_eq_true_eq, List.isPrefixOf_iff_prefix, and_assoc]

theorem isDirectory_iff_isLasting (h : f.IsSound) : f.isDirectory place ↔ f.isLasting place := by
  rw [isDirectory_iff, or_iff_left_iff_imp]
  rintro ⟨file, hfile, habove⟩
  exact h.lasting file hfile place habove

theorem isLasting_congr (h : f.directories = g.directories) : f.isLasting place = g.isLasting place := by
  unfold isLasting
  rw [h]

theorem mem_of_lookup {files : List (Path × FileContent)} (h : files.lookup place = some content) :
    (place, content) ∈ files := by
  obtain ⟨before, after, rfl, -⟩ := List.lookup_eq_some_iff.mp h
  simp

theorem lookup_filter_ne {files : List (Path × FileContent)} (h : q ≠ place) :
    (files.filter (·.1 ≠ place)).lookup q = files.lookup q := by
  induction files with
  | nil => rfl
  | cons file files ih =>
    by_cases hfile : file.1 = place
    . have hq : (q == file.1) = false := by simpa [hfile] using h
      rw [List.filter_cons_of_neg (by simpa using hfile), ih, List.lookup_cons, hq]
    . rw [List.filter_cons_of_pos (by simpa using hfile), List.lookup_cons, List.lookup_cons, ih]

theorem lookup_filter_self {files : List (Path × FileContent)} :
    (files.filter (·.1 ≠ place)).lookup place = none := by
  induction files with
  | nil => rfl
  | cons file files ih =>
    by_cases hfile : file.1 = place
    . rw [List.filter_cons_of_neg (by simpa using hfile), ih]
    . have hplace : (place == file.1) = false := by simpa using Ne.symm hfile
      rw [List.filter_cons_of_pos (by simpa using hfile), List.lookup_cons, hplace, ih]

@[simp] theorem lookup_write_self : (f.write place content).files.lookup place = some content := by
  simp [write]

theorem lookup_write_of_ne (h : q ≠ place) :
    (f.write place content).files.lookup q = f.files.lookup q := by
  have hq : (q == place) = false := by simpa using h
  rw [write, List.lookup_cons, hq]
  exact lookup_filter_ne h

@[simp] theorem lookup_erase_self : (f.erase place).files.lookup place = none :=
  lookup_filter_self

theorem lookup_erase_of_ne (h : q ≠ place) : (f.erase place).files.lookup q = f.files.lookup q :=
  lookup_filter_ne h

theorem isSound_erase (h : f.IsSound) : (f.erase place).IsSound where
  lasting file hfile := h.lasting file (List.mem_of_mem_filter hfile)
  readable file hfile := h.readable file (List.mem_of_mem_filter hfile)

theorem isSound_write (h : f.IsSound) (hplace : ∀ r, IsAbove r place → f.isLasting r)
    (hcontent : content.IsReadable) : (f.write place content).IsSound := by
  constructor
  . intro file hfile
    rcases List.mem_cons.mp hfile with rfl | hfile
    . exact hplace
    . exact h.lasting file (List.mem_of_mem_filter hfile)
  . intro file hfile
    rcases List.mem_cons.mp hfile with rfl | hfile
    . exact hcontent
    . exact h.readable file (List.mem_of_mem_filter hfile)

theorem look_of_isDirectory (h : f.isDirectory place) : f.look place = .unreadable .isDirectory :=
  if_pos h

theorem look_of_not_isDirectory (h : ¬f.isDirectory place) :
    f.look place = (f.files.lookup place).getD (.unreadable .missing) :=
  if_neg h

theorem look_of_lookup (h : ¬f.isDirectory place) (hfile : f.files.lookup place = some content) :
    f.look place = content := by
  rw [look_of_not_isDirectory h, hfile, Option.getD_some]

theorem look_eq_isDirectory_iff (hf : f.IsSound) :
    f.look place = .unreadable .isDirectory ↔ f.isDirectory place := by
  refine ⟨fun h => ?_, look_of_isDirectory⟩
  by_contra hdir
  rw [look_of_not_isDirectory hdir] at h
  cases hfile : f.files.lookup place with
  | none => simp [hfile] at h
  | some content =>
    rw [hfile, Option.getD_some] at h
    exact hf.readable _ (mem_of_lookup hfile) _ h

theorem isDirectory_congr (hf : f.IsSound) (hg : g.IsSound) (h : f.directories = g.directories) :
    f.isDirectory place ↔ g.isDirectory place := by
  rw [isDirectory_iff_isLasting hf, isDirectory_iff_isLasting hg, isLasting_congr h]

theorem look_congr (hf : f.IsSound) (hg : g.IsSound) (hdirectories : f.directories = g.directories)
    (hfile : f.files.lookup place = g.files.lookup place) : f.look place = g.look place := by
  unfold look
  rw [hfile, Bool.eq_iff_iff.mpr (isDirectory_congr hf hg hdirectories)]

theorem follow_cons_of_isDirectory (h : f.isDirectory here) :
    f.follow here (part :: rest) =
      if part.utf8ByteSize > maxPartSize then .error .nameTooLong else f.follow (here.step part) rest := by
  rw [follow, look_of_isDirectory h]

theorem follow_cons_eq_ok (h : f.follow here (part :: rest) = .ok place) :
    f.look here = .unreadable .isDirectory ∧ part.utf8ByteSize ≤ maxPartSize ∧
      f.follow (here.step part) rest = .ok place := by
  unfold follow at h
  split at h
  . rename_i hlook
    obtain ⟨hsize, h⟩ := ite_error_eq_ok_iff.mp h
    exact ⟨hlook, Nat.le_of_not_gt hsize, h⟩
  . simp at h
  . simp at h

theorem of_follow_eq_ok (h : f.follow here parts = .ok place) :
    parts.foldl Path.step here = place ∧ (∀ part ∈ parts, part.utf8ByteSize ≤ maxPartSize) ∧
      ∀ r, IsAbove r place → IsAbove r here ∨ f.look r = .unreadable .isDirectory := by
  -- A way that can be gone leads to the place without detours, through directories.
  induction parts generalizing here with
  | nil =>
    obtain rfl : here = place := Except.ok.inj h
    exact ⟨rfl, by simp, fun r hr => .inl hr⟩
  | cons part rest ih =>
    obtain ⟨hlook, hsize, h⟩ := follow_cons_eq_ok h
    obtain ⟨hplace, hsizes, habove⟩ := ih h
    refine ⟨hplace, by simpa using ⟨hsize, hsizes⟩, fun r hr => ?_⟩
    rcases habove r hr with hr | hr
    . rcases Path.isAbove_of_isAbove_step hr with hr | rfl
      . exact .inl hr
      . exact .inr hlook
    . exact .inr hr

theorem follow_of_isSettled (hsettled : IsSettled ⟨root, xs ++ ys⟩)
    (hsizes : ∀ part ∈ ys, part.utf8ByteSize ≤ maxPartSize)
    (habove : ∀ r, IsAbove r ⟨root, xs ++ ys⟩ → f.isDirectory r) :
    f.follow ⟨root, xs⟩ ys = .ok ⟨root, xs ++ ys⟩ := by
  induction ys generalizing xs with
  | nil => simp [follow]
  | cons y ys ih =>
    rw [follow_cons_of_isDirectory (habove _ Path.isAbove_append_cons),
      if_neg (Nat.not_lt_of_le (hsizes y (by simp))), Path.step_of_isSettled hsettled,
      ih (by simpa using hsettled) (fun part hpart => hsizes part (by simp [hpart])) (by simpa using habove)]
    simp

theorem follow_congr_of_isSettled (hsettled : IsSettled ⟨root, xs ++ ys⟩)
    (habove : ∀ r, IsAbove r ⟨root, xs ++ ys⟩ → f.look r = g.look r) :
    f.follow ⟨root, xs⟩ ys = g.follow ⟨root, xs⟩ ys := by
  induction ys generalizing xs with
  | nil => rfl
  | cons y ys ih =>
    rw [follow, follow, habove _ Path.isAbove_append_cons, Path.step_of_isSettled hsettled,
      ih (by simpa using hsettled) (by simpa using habove)]

theorem coarse_follow_cons_of_not_isDirectory (hf : f.IsSound) (h : ¬f.isDirectory here) :
    (f.follow here (part :: rest)).mapError FileProblem.coarse = .error .missing := by
  have hlook := look_of_not_isDirectory h
  unfold follow
  cases hfile : f.files.lookup here with
  | none =>
    rw [hlook, hfile]
    rfl
  | some content =>
    rw [hlook, hfile, Option.getD_some]
    have hreadable := hf.readable _ (mem_of_lookup hfile)
    cases content with
    | text s => rfl
    | undecodable => rfl
    | unreadable problem => exact absurd rfl (hreadable problem)

theorem coarse_follow_congr (hf : f.IsSound) (hg : g.IsSound) (h : f.directories = g.directories) :
    (f.follow here parts).mapError FileProblem.coarse =
      (g.follow here parts).mapError FileProblem.coarse := by
  induction parts generalizing here with
  | nil => rfl
  | cons part rest ih =>
    have hdir : f.isDirectory here ↔ g.isDirectory here := isDirectory_congr hf hg h
    by_cases hhere : f.isDirectory here
    -- Both ways go on through the same directories and end at the same place.
    . rw [follow_cons_of_isDirectory hhere, follow_cons_of_isDirectory (hdir.mp hhere)]
      split_ifs
      . rfl
      . exact ih
    . rw [coarse_follow_cons_of_not_isDirectory hf hhere,
        coarse_follow_cons_of_not_isDirectory hg (mt hdir.mpr hhere)]

theorem of_reach_eq_ok (h : f.reach p = .ok place) :
    p.settle = place ∧ p.text.utf8ByteSize ≤ maxPathSize ∧
      (∀ part ∈ p.parts, part.utf8ByteSize ≤ maxPartSize) ∧
      ∀ r, IsAbove r place → f.look r = .unreadable .isDirectory := by
  obtain ⟨hsize, h⟩ := ite_error_eq_ok_iff.mp h
  obtain ⟨hplace, hsizes, habove⟩ := of_follow_eq_ok h
  refine ⟨hplace, Nat.le_of_not_gt hsize, hsizes, fun r hr => ?_⟩
  exact (habove r hr).resolve_left Path.not_isAbove_nil

theorem coarse_reach_congr (hf : f.IsSound) (hg : g.IsSound) (h : f.directories = g.directories) :
    (f.reach p).mapError FileProblem.coarse = (g.reach p).mapError FileProblem.coarse := by
  unfold reach
  split_ifs
  . rfl
  . exact coarse_follow_congr hf hg h

theorem reach_eq_ok_congr (hf : f.IsSound) (hg : g.IsSound) (h : f.directories = g.directories) :
    f.reach p = .ok place ↔ g.reach p = .ok place := by
  rw [← mapError_eq_ok_iff, coarse_reach_congr hf hg h, mapError_eq_ok_iff]

theorem coarse_visit_congr (hf : f.IsSound) (hg : g.IsSound) (h : f.directories = g.directories)
    (hfile : f.files.lookup p.settle = g.files.lookup p.settle) :
    (f.visit p).coarse = (g.visit p).coarse := by
  -- With the same file at its place a path leads to the same, up to where the way to it ends.
  have hreach := coarse_reach_congr (p := p) hf hg h
  unfold visit
  cases hf' : f.reach p with
  | ok place =>
    have hg' := (reach_eq_ok_congr hf hg h).mp hf'
    obtain rfl := (of_reach_eq_ok hf').1
    simp only [hg', look_congr hf hg h hfile]
  | error problem =>
    cases hg' : g.reach p with
    | ok place => simp [hf', hg', Except.mapError] at hreach
    | error problem' =>
      have hproblem : problem.coarse = problem'.coarse := by
        simpa [hf', hg', Except.mapError] using hreach
      simp [FileContent.coarse, hproblem]

theorem visit_settle_congr (hf : f.IsSound) (hg : g.IsSound) (h : f.directories = g.directories)
    (hfile : f.files.lookup p.settle = g.files.lookup p.settle)
    (habove : ∀ r, IsAbove r p.settle → f.files.lookup r = g.files.lookup r) :
    f.visit p.settle = g.visit p.settle := by
  have hfollow : f.follow p.settle.start p.settle.parts = g.follow p.settle.start p.settle.parts := by
    rw [Path.start_settle]
    exact follow_congr_of_isSettled Path.isSettled_settle fun r hr => look_congr hf hg h (habove r hr)
  have hreach : f.reach p.settle = g.reach p.settle := by
    unfold reach
    rw [hfollow]
  unfold visit
  rw [← hreach]
  cases hplace : f.reach p.settle with
  | error problem => rfl
  | ok place =>
    obtain rfl := (of_reach_eq_ok hplace).1
    exact look_congr hf hg h (by simpa using hfile)

theorem put_eq_ok_iff : f.put p content = .ok f' ↔
    f.reach p = .ok p.settle ∧ ¬f.isDirectory p.settle ∧ f.write p.settle content = f' := by
  unfold put
  rw [bind_eq_ok_iff]
  constructor
  . rintro ⟨place, hreach, h⟩
    obtain rfl := (of_reach_eq_ok hreach).1
    by_cases hdir : f.isDirectory p.settle
    . rw [if_pos hdir] at h
      cases h
    . rw [if_neg hdir] at h
      exact ⟨hreach, hdir, Except.ok.inj h⟩
  . rintro ⟨hreach, hdir, rfl⟩
    exact ⟨p.settle, hreach, by rw [if_neg hdir]; rfl⟩

theorem remove_eq_ok_iff : f.remove p = .ok f' ↔
    f.reach p = .ok p.settle ∧ (f.look p.settle).IsReadable ∧ f.erase p.settle = f' := by
  unfold remove
  rw [bind_eq_ok_iff]
  constructor
  . rintro ⟨place, hreach, h⟩
    obtain rfl := (of_reach_eq_ok hreach).1
    split at h
    . simp at h
    . rename_i hlook
      exact ⟨hreach, hlook, Except.ok.inj h⟩
  . rintro ⟨hreach, hlook, rfl⟩
    refine ⟨p.settle, hreach, ?_⟩
    split
    . rename_i problem hproblem
      exact absurd hproblem (hlook problem)
    . rfl

inductive Changes (f : Folder) (place : Path) : Folder → Prop
  | kept : f.Changes place f
  | put {path : Path} {new : FileContent} {changed : Folder} (hplace : path.settle = place)
    (hnew : new.IsReadable) (h : f.put path new = .ok changed) : f.Changes place changed
  | removed {path : Path} {changed : Folder} (hplace : path.settle = place)
    (h : f.remove path = .ok changed) : f.Changes place changed

theorem Changes.directories_eq (h : f.Changes place f') : f'.directories = f.directories := by
  cases h with
  | kept => rfl
  | put _ _ h =>
    obtain ⟨-, -, rfl⟩ := put_eq_ok_iff.mp h
    rfl
  | removed _ h =>
    obtain ⟨-, -, rfl⟩ := remove_eq_ok_iff.mp h
    rfl

theorem Changes.lookup_of_ne (h : f.Changes place f') (hq : q ≠ place) :
    f'.files.lookup q = f.files.lookup q := by
  cases h with
  | kept => rfl
  | put hplace _ h =>
    obtain ⟨-, -, rfl⟩ := put_eq_ok_iff.mp h
    exact lookup_write_of_ne (hplace ▸ hq)
  | removed hplace h =>
    obtain ⟨-, -, rfl⟩ := remove_eq_ok_iff.mp h
    exact lookup_erase_of_ne (hplace ▸ hq)

theorem Changes.isSound (h : f.Changes place f') (hf : f.IsSound) : f'.IsSound := by
  cases h with
  | kept => exact hf
  | put _ hnew h =>
    obtain ⟨hreach, -, rfl⟩ := put_eq_ok_iff.mp h
    -- The way to the file goes through all places above it, so they were directories before.
    refine isSound_write hf (fun r hr => ?_) hnew
    rw [← isDirectory_iff_isLasting hf, ← look_eq_isDirectory_iff hf]
    exact (of_reach_eq_ok hreach).2.2.2 r hr
  | removed _ h =>
    obtain ⟨-, -, rfl⟩ := remove_eq_ok_iff.mp h
    exact isSound_erase hf

theorem reach_settle (h : f.reach p = .ok p.settle) (habove : ∀ r, IsAbove r p.settle → g.isDirectory r) :
    g.reach p.settle = .ok p.settle := by
  obtain ⟨-, hsize, hsizes, -⟩ := of_reach_eq_ok h
  have htext : ¬p.settle.text.utf8ByteSize > maxPathSize := by
    have := Path.size_text_settle_le (p := p)
    simp only [maxPathSize] at hsize ⊢
    omega
  unfold reach
  rw [if_neg htext, Path.start_settle]
  exact follow_of_isSettled Path.isSettled_settle
    (fun part hpart => hsizes part (Path.sublist_settle.subset hpart)) habove

theorem visit_put (h : f.put p content = .ok f') : f'.visit p.settle = content := by
  -- A file that has been put is found at its place.
  obtain ⟨hreach, hdir, rfl⟩ := put_eq_ok_iff.mp h
  have hplace : ¬(f.write p.settle content).isDirectory p.settle := by
    rw [isDirectory_iff] at hdir ⊢
    rintro (hlasting | ⟨file, hfile, hr⟩)
    . exact hdir (.inl hlasting)
    . rcases List.mem_cons.mp hfile with rfl | hfile
      . exact hr.2.2 rfl
      . exact hdir (.inr ⟨file, List.mem_of_mem_filter hfile, hr⟩)
  -- The file itself makes directories of all places above it.
  unfold visit
  rw [reach_settle hreach fun r hr => isDirectory_iff.mpr (.inr ⟨(p.settle, content), List.mem_cons_self, hr⟩)]
  exact look_of_lookup hplace lookup_write_self

theorem visit_remove (hf : f.IsSound) (h : f.remove p = .ok f') :
    f'.visit p.settle = .unreadable .missing := by
  obtain ⟨hreach, hlook, rfl⟩ := remove_eq_ok_iff.mp h
  have hdir : ∀ {place}, f.isDirectory place ↔ (f.erase p.settle).isDirectory place :=
    isDirectory_congr hf (isSound_erase hf) rfl
  have hplace : ¬(f.erase p.settle).isDirectory p.settle := fun hplace =>
    hlook _ (look_of_isDirectory (hdir.mpr hplace))
  have habove : ∀ r, IsAbove r p.settle → (f.erase p.settle).isDirectory r := fun r hr =>
    hdir.mp ((look_eq_isDirectory_iff hf).mp ((of_reach_eq_ok hreach).2.2.2 r hr))
  unfold visit
  rw [reach_settle hreach habove]
  show (f.erase p.settle).look p.settle = _
  rw [look_of_not_isDirectory hplace, lookup_erase_self, Option.getD_none]

theorem isSound_standard : standard.IsSound := by
  constructor
  . intro file hfile place habove
    obtain rfl := List.mem_singleton.mp hfile
    have hdevice : Path.ofText "/dev/null" = ⟨"/", ["dev", "null"]⟩ := by decide
    rw [hdevice] at habove
    obtain ⟨root, parts⟩ := place
    obtain ⟨hroot, hprefix, hne⟩ := habove
    dsimp only at hroot hprefix
    subst hroot
    rcases List.prefix_cons_iff.mp hprefix with rfl | ⟨rest, rfl, hrest⟩
    . decide
    . rcases List.prefix_cons_iff.mp hrest with rfl | ⟨last, rfl, hlast⟩
      . decide
      . obtain rfl := List.prefix_nil.mp hlast
        exact absurd rfl hne
  . intro file hfile problem
    obtain rfl := List.mem_singleton.mp hfile
    simp

end Folder

end RowSweep
