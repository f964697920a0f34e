import Mathlib.Data.List.Basic
import RowSweep.File.Path

/-!
This module contains the form of settled paths. A path that is settled has no detours any more, so that the
way along it goes through the places above it, one after the other.
-/

namespace RowSweep

namespace Path

variable {p q r : Path} {root part : String} {xs ys parts : List String}

def IsAbove (p q : Path) : Prop :=
  q.root = p.root ∧ p.parts <+: q.parts ∧ q ≠ p

instance : Decidable (p.IsAbove q) :=
  inferInstanceAs (Decidable (_ ∧ _ ∧ _))

structure IsSettled (p : Path) : Prop where
  front : p.parts.Pairwise fun a b => b = ".." → a = ".."
  rooted : p.root ≠ "" → ".." ∉ p.parts

theorem eq_of_fields (hroot : p.root = q.root) (hparts : p.parts = q.parts) : p = q := by
  cases p
  cases q
  simp_all

theorem isAbove_append_cons : IsAbove ⟨root, xs⟩ ⟨root, xs ++ part :: parts⟩ :=
  ⟨rfl, List.prefix_append .., by simp⟩

theorem not_isAbove_nil : ¬r.IsAbove ⟨root, []⟩ := by
  rintro ⟨hroot, hprefix, hne⟩
  have hparts : r.parts = [] := List.prefix_nil.mp hprefix
  exact hne (eq_of_fields hroot hparts.symm)

theorem root_step : (p.step part).root = p.root := by
  unfold step
  split_ifs with _ _ h <;> simp_all

theorem isAbove_of_isAbove_step (h : r.IsAbove (p.step part)) : r.IsAbove p ∨ r = p := by
  -- What is above the place after a step was on the way before it.
  obtain ⟨hroot, hprefix, hne⟩ := h
  rw [root_step] at hroot
  by_cases hr : p = r
  . exact .inr hr.symm
  . refine .inl ⟨hroot, ?_, hr⟩
    -- Where a part is added, be it a double dot, only the place before the step comes in above.
    have hadded : ∀ x, (⟨p.root, p.parts ++ [x]⟩ : Path) ≠ r → r.parts <+: p.parts ++ [x] →
        r.parts <+: p.parts := by
      intro x hne hprefix
      rcases List.prefix_concat_iff.mp hprefix with hparts | hprefix
      . exact (hne (eq_of_fields hroot hparts.symm)).elim
      . exact hprefix
    unfold step at hprefix hne
    split_ifs at hprefix hne with _ _ hcurrent
    . exact hadded part hne hprefix
    . exact hprefix.trans (List.dropLast_prefix _)
    . exact hadded ".." (hcurrent ▸ hne) hprefix
    . exact hprefix

theorem isSettled_step (h : p.IsSettled) : (p.step part).IsSettled := by
  unfold step
  split_ifs with hpart hany hroot
  . constructor
    . simp [List.pairwise_append, h.front, hpart]
    . intro hroot
      simp [h.rooted hroot, Ne.symm hpart]
  . exact ⟨h.front.sublist (List.dropLast_sublist _),
      fun hroot hmem => h.rooted hroot ((List.dropLast_sublist _).subset hmem)⟩
  . constructor
    . rw [List.pairwise_append]
      refine ⟨h.front, List.pairwise_singleton .., ?_⟩
      simpa using hany
    . exact fun hroot => absurd rfl hroot
  . exact h

theorem isSettled_start : p.start.IsSettled :=
  ⟨List.Pairwise.nil, fun _ => List.not_mem_nil⟩

theorem isSettled_foldl_step (h : p.IsSettled) : (parts.foldl step p).IsSettled := by
  induction parts generalizing p with
  | nil => exact h
  | cons part parts ih => exact ih (isSettled_step h)

theorem isSettled_settle : p.settle.IsSettled :=
  isSettled_foldl_step isSettled_start

theorem step_of_isSettled (h : IsSettled ⟨root, xs ++ part :: parts⟩) :
    step ⟨root, xs⟩ part = ⟨root, xs ++ [part]⟩ := by
  unfold step
  split_ifs with hpart hany hroot
  . rfl
  -- A double dot behind another part would not be in front.
  . obtain rfl : part = ".." := by simpa using hpart
    obtain ⟨x, hx, hne⟩ := List.any_eq_true.mp hany
    have hfront := (List.pairwise_append.mp h.front).2.2 x hx ".." (by simp) rfl
    simp [hfront] at hne
  . obtain rfl : part = ".." := by simpa using hpart
    rw [show root = "" from hroot]
  . obtain rfl : part = ".." := by simpa using hpart
    exact absurd (by simp) (h.rooted hroot)

theorem foldl_step_of_isSettled (h : IsSettled ⟨root, xs ++ ys⟩) :
    ys.foldl step ⟨root, xs⟩ = ⟨root, xs ++ ys⟩ := by
  induction ys generalizing xs with
  | nil => simp
  | cons y ys ih =>
    rw [List.foldl_cons, step_of_isSettled h, ih (by simpa using h)]
    simp

theorem root_foldl_step : (parts.foldl step p).root = p.root := by
  induction parts generalizing p with
  | nil => rfl
  | cons part parts ih => rw [List.foldl_cons, ih, root_step]

theorem root_settle : p.settle.root = if p.root = "" then "" else "/" :=
  root_foldl_step

theorem start_settle : p.settle.start = ⟨p.settle.root, []⟩ := by
  unfold start
  rw [root_settle]
  split_ifs <;> simp_all

@[simp] theorem settle_settle : p.settle.settle = p.settle := by
  rw [settle, start_settle]
  exact foldl_step_of_isSettled isSettled_settle

theorem sublist_step : (p.step part).parts.Sublist (p.parts ++ [part]) := by
  unfold step
  split_ifs with hpart
  . exact List.Sublist.refl _
  . exact (List.dropLast_sublist _).trans (List.sublist_append_left ..)
  . obtain rfl : part = ".." := by simpa using hpart
    exact List.Sublist.refl _
  . exact List.sublist_append_left ..

theorem sublist_foldl_step : (parts.foldl step p).parts.Sublist (p.parts ++ parts) := by
  induction parts generalizing p with
  | nil => simp
  | cons part parts ih =>
    rw [List.foldl_cons]
    refine ih.trans ?_
    simpa using sublist_step.append_right parts

theorem sublist_settle : p.settle.parts.Sublist p.parts :=
  sublist_foldl_step

theorem size_intercalate_le (h : xs.Sublist ys) :
    ("/".intercalate xs).utf8ByteSize ≤ ("/".intercalate ys).utf8ByteSize := by
  induction h with
  | slnil => simp
  | @cons xs ys y h ih =>
    cases ys with
    | nil => simp_all
    | cons z ys => simp only [String.intercalate_cons_cons, String.utf8ByteSize_append]; omega
  | @cons_cons xs ys x h ih =>
    cases xs with
    | nil =>
      cases ys with
      | nil => simp
      | cons y ys => simp [String.intercalate_cons_cons]; omega
    | cons z xs =>
      cases ys with
      | nil => simp at h
      | cons y ys => simp only [String.intercalate_cons_cons, String.utf8ByteSize_append]; omega

theorem size_text_settle_le : p.settle.text.utf8ByteSize ≤ max 1 p.text.utf8ByteSize := by
  have hparts := size_intercalate_le (sublist_settle (p := p))
  have hroot : p.settle.root.utf8ByteSize ≤ p.root.utf8ByteSize := by
    rw [root_settle]
    split_ifs with h
    . simp [h]
    . have hpos : 0 < p.root.utf8ByteSize := by
        simpa [Nat.pos_iff_ne_zero] using h
      exact hpos
  unfold text
  split_ifs with hsettled hp hp
  . exact Nat.le_max_left ..
  . exact Nat.le_max_left ..
  . have hnil : p.settle.parts = [] := by
      simpa [hp.2] using sublist_settle (p := p)
    exact absurd ⟨by rw [root_settle, if_pos hp.1], hnil⟩ hsettled
  . refine Nat.le_trans ?_ (Nat.le_max_right ..)
    simp only [String.utf8ByteSize_append]
    omega

end Path

end RowSweep
