import Mathlib.Data.List.Sort
import RowSweep.Document

/-!
This module contains plain documents, in which the keys of each mapping come in increasing order. Sorting the keys of a
document gives such an order and leaves one that has it as it is.
-/

namespace RowSweep.Document

def KeysAscend (entries : List (String × α)) : Prop :=
  entries.Pairwise fun a b => a.1 < b.1

inductive IsPlain : Document → Prop where
  | null : IsPlain .null
  | boolean (b : Bool) : IsPlain (.boolean b)
  | integer (i : Int) : IsPlain (.integer i)
  | real (x : Binary64) : IsPlain (.real x)
  | text (s : String) : IsPlain (.text s)
  | sequence {items : List Document} (each : ∀ item ∈ items, IsPlain item) : IsPlain (.sequence items)
  | mapping {entries : List (String × Document)} (ascend : KeysAscend entries)
      (each : ∀ entry ∈ entries, IsPlain entry.2) : IsPlain (.mapping entries)

variable {entries sorted : List (String × α)} {key : String} {value : α} {entry : String × α}

theorem mem_insertSorted (h : entry ∈ insertSorted key value entries) : entry = (key, value) ∨ entry ∈ entries := by
  induction entries with
  | nil => exact Or.inl (List.mem_singleton.mp h)
  | cons first rest ih =>
    unfold insertSorted at h
    split at h
    next =>
      rw [List.mem_cons] at h ⊢
      cases h with
      | inl h => exact Or.inr (Or.inl h)
      | inr h => exact (ih h).imp_right Or.inr
    next =>
      split at h
      next =>
        rw [List.mem_cons] at h ⊢
        exact h.imp_right Or.inr
      next => exact List.mem_cons.mp h

theorem keysAscend_insertSorted (h : KeysAscend entries) : KeysAscend (insertSorted key value entries) := by
  induction entries with
  | nil => exact List.pairwise_singleton _ _
  | cons first rest ih =>
    have hrest : KeysAscend rest := List.Pairwise.of_cons h
    have hfirst : ∀ entry ∈ rest, first.1 < entry.1 := (List.pairwise_cons.mp h).left
    unfold insertSorted
    split
    next hlt =>
      apply List.Pairwise.cons _ (ih hrest)
      intro entry hmem
      cases mem_insertSorted hmem with
      | inl heq =>
        rw [heq]
        exact hlt
      | inr hmem => exact hfirst entry hmem
    next hge =>
      split
      next heq =>
        apply List.Pairwise.cons _ hrest
        intro entry hmem
        rw [← heq]
        exact hfirst entry hmem
      next hne =>
        have hkey : key < first.1 := by
          apply String.not_le.mp
          intro hle
          exact hne (String.le_antisymm hle (String.not_lt.mp hge))
        apply List.Pairwise.cons _ h
        intro entry hmem
        cases List.mem_cons.mp hmem with
        | inl heq =>
          rw [heq]
          exact hkey
        | inr hmem => exact String.lt_trans hkey (hfirst entry hmem)

theorem insertSorted_of_forall_lt (h : ∀ entry ∈ entries, entry.1 < key) :
    insertSorted key value entries = entries ++ [(key, value)] := by
  induction entries with
  | nil => rfl
  | cons first rest ih =>
    rw [List.forall_mem_cons] at h
    unfold insertSorted
    rw [if_pos h.left, ih h.right]
    rfl

theorem lookup_cons_eq_ite (first : String × α) (rest : List (String × α)) (key : String) :
    (first :: rest).lookup key = if key = first.1 then some first.2 else rest.lookup key := by
  rw [List.lookup_cons]
  split
  next hkey => rw [if_pos (eq_of_beq hkey)]
  next hkey => rw [if_neg (beq_eq_false_iff_ne.mp hkey)]

theorem lookup_insertSorted (entries : List (String × α)) (key : String) (value : α) (k : String) :
    (insertSorted key value entries).lookup k = if k = key then some value else entries.lookup k := by
  induction entries with
  | nil => exact lookup_cons_eq_ite _ _ _
  | cons first rest ih =>
    unfold insertSorted
    split
    next hlt =>
      have hne : first.1 ≠ key := String.ne_of_lt hlt
      rw [lookup_cons_eq_ite, lookup_cons_eq_ite, ih]
      split
      next heq =>
        subst heq
        rw [if_neg hne]
      next => rfl
    next =>
      split
      next heq =>
        subst heq
        rw [lookup_cons_eq_ite, lookup_cons_eq_ite]
        split
        next => rfl
        next => rfl
      next => exact lookup_cons_eq_ite _ _ _

theorem mem_sortEntries (h : entry ∈ sortEntries entries) : entry ∈ entries := by
  have hfold : ∀ sorted, entry ∈ entries.foldl (fun sorted entry => insertSorted entry.1 entry.2 sorted) sorted →
      entry ∈ sorted ∨ entry ∈ entries := by
    clear h
    induction entries with
    | nil => exact fun _ h => Or.inl h
    | cons first rest ih =>
      intro sorted h
      cases ih _ h with
      | inl hmem =>
        cases mem_insertSorted hmem with
        | inl heq => exact Or.inr (List.mem_cons.mpr (Or.inl heq))
        | inr hmem => exact Or.inl hmem
      | inr hmem => exact Or.inr (List.mem_cons_of_mem _ hmem)
  cases hfold [] h with
  | inl hnil => cases hnil
  | inr hmem => exact hmem

theorem keysAscend_sortEntries (entries : List (String × α)) : KeysAscend (sortEntries entries) := by
  unfold sortEntries
  generalize hsorted : ([] : List (String × α)) = sorted
  have hascend : KeysAscend sorted := by
    rw [← hsorted]
    exact List.Pairwise.nil
  clear hsorted
  induction entries generalizing sorted with
  | nil => exact hascend
  | cons first rest ih => exact ih _ (keysAscend_insertSorted hascend)

theorem sortEntries_of_keysAscend (h : KeysAscend entries) : sortEntries entries = entries := by
  have hfold : ∀ sorted, KeysAscend (sorted ++ entries) →
      entries.foldl (fun sorted entry => insertSorted entry.1 entry.2 sorted) sorted = sorted ++ entries := by
    clear h
    induction entries with
    | nil => simp
    | cons first rest ih =>
      intro sorted hsorted
      have hlt : ∀ entry ∈ sorted, entry.1 < first.1 := by
        intro entry hmem
        exact (List.pairwise_append.mp hsorted).right.right entry hmem first List.mem_cons_self
      rw [← List.singleton_append, ← List.append_assoc] at hsorted ⊢
      rw [List.singleton_append, List.foldl_cons, insertSorted_of_forall_lt hlt]
      exact ih _ hsorted
  exact hfold [] h

theorem KeysAscend.nodup_keys (h : KeysAscend entries) : (entries.map (·.1)).Nodup := by
  unfold List.Nodup
  rw [List.pairwise_map]
  exact h.imp String.ne_of_lt

theorem lookup_eq_none_of_forall_lt (h : ∀ entry ∈ entries, key < entry.1) : entries.lookup key = none := by
  rw [List.lookup_eq_none_iff]
  intro entry hmem
  exact bne_iff_ne.mpr (String.ne_of_lt (h entry hmem))

theorem lookup_eq_some_iff (h : (entries.map (·.1)).Nodup) :
    entries.lookup key = some value ↔ (key, value) ∈ entries := by
  induction entries with
  | nil => simp
  | cons first rest ih =>
    rw [List.map_cons, List.nodup_cons] at h
    rw [lookup_cons_eq_ite, List.mem_cons]
    split
    next hkey =>
      subst hkey
      have hrest : (first.1, value) ∉ rest := fun hmem => h.left (List.mem_map.mpr ⟨_, hmem, rfl⟩)
      simp [hrest, Prod.ext_iff, eq_comm]
    next hkey => simp [ih h.right, Prod.ext_iff, hkey]

theorem KeysAscend.eq_of_mem_iff {entries' : List (String × α)} (h : KeysAscend entries) (h' : KeysAscend entries')
    (heq : ∀ entry, entry ∈ entries ↔ entry ∈ entries') : entries = entries' := by
  have : Std.Asymm fun a b : String × α => a.1 < b.1 := ⟨fun _ _ => String.lt_asymm⟩
  exact List.Pairwise.eq_of_mem_iff h h' heq

theorem KeysAscend.ext {entries' : List (String × α)} (h : KeysAscend entries) (h' : KeysAscend entries')
    (heq : ∀ key, entries.lookup key = entries'.lookup key) : entries = entries' := by
  apply h.eq_of_mem_iff h'
  intro entry
  rw [← lookup_eq_some_iff h.nodup_keys, ← lookup_eq_some_iff h'.nodup_keys, heq]

theorem lookup_sortEntries (entries : List (String × α)) (key : String) :
    (sortEntries entries).lookup key = entries.reverse.lookup key := by
  have hfold : ∀ sorted, (entries.foldl (fun sorted entry => insertSorted entry.1 entry.2 sorted) sorted).lookup key =
      (entries.reverse.lookup key).or (sorted.lookup key) := by
    induction entries with
    | nil => exact fun _ => rfl
    | cons first rest ih =>
      intro sorted
      rw [List.foldl_cons, ih, lookup_insertSorted, List.reverse_cons, List.lookup_append, Option.or_assoc]
      congr 1
      rw [lookup_cons_eq_ite]
      split
      next => rfl
      next => rfl
  exact (hfold []).trans (Option.or_none)

theorem mem_sortEntries_iff (h : (entries.map (·.1)).Nodup) : entry ∈ sortEntries entries ↔ entry ∈ entries := by
  have hreverse : (entries.reverse.map (·.1)).Nodup := by
    rw [List.map_reverse]
    exact List.nodup_reverse.mpr h
  rw [← lookup_eq_some_iff (keysAscend_sortEntries entries).nodup_keys, lookup_sortEntries, lookup_eq_some_iff hreverse,
    List.mem_reverse]

theorem sortEntries_eq_of_perm {entries' : List (String × α)} (h : (entries.map (·.1)).Nodup)
    (hperm : entries.Perm entries') : sortEntries entries = sortEntries entries' := by
  have h' : (entries'.map (·.1)).Nodup := (hperm.map _).nodup_iff.mp h
  apply (keysAscend_sortEntries entries).eq_of_mem_iff (keysAscend_sortEntries entries')
  intro entry
  rw [mem_sortEntries_iff h, mem_sortEntries_iff h', hperm.mem_iff]

theorem insertSorted_map (f : α → β) (key : String) (value : α) (entries : List (String × α)) :
    insertSorted key (f value) (entries.map fun entry => (entry.1, f entry.2)) =
      (insertSorted key value entries).map fun entry => (entry.1, f entry.2) := by
  induction entries with
  | nil => rfl
  | cons first rest ih =>
    rw [List.map_cons]
    unfold insertSorted
    rw [ih]
    split
    next => rfl
    next =>
      split
      next => rfl
      next => rfl

theorem sortEntries_map (f : α → β) (entries : List (String × α)) :
    sortEntries (entries.map fun entry => (entry.1, f entry.2)) =
      (sortEntries entries).map fun entry => (entry.1, f entry.2) := by
  have hfold : ∀ sorted : List (String × α),
      (entries.map fun entry => (entry.1, f entry.2)).foldl (fun sorted entry => insertSorted entry.1 entry.2 sorted)
          (sorted.map fun entry => (entry.1, f entry.2)) =
        (entries.foldl (fun sorted entry => insertSorted entry.1 entry.2 sorted) sorted).map
          fun entry => (entry.1, f entry.2) := by
    induction entries with
    | nil => exact fun _ => rfl
    | cons first rest ih =>
      intro sorted
      rw [List.foldl_cons, ← ih, ← insertSorted_map]
      rfl
  exact hfold []

theorem sortItemKeys_eq {items : List Document} (h : ∀ item ∈ items, item.sortKeys = item) :
    sortItemKeys items = items := by
  induction items with
  | nil => rfl
  | cons item rest ih =>
    rw [List.forall_mem_cons] at h
    rw [sortItemKeys, h.left, ih h.right]

theorem sortEntryKeys_eq {entries : List (String × Document)} (h : ∀ entry ∈ entries, entry.2.sortKeys = entry.2) :
    sortEntryKeys entries = entries := by
  induction entries with
  | nil => rfl
  | cons entry rest ih =>
    rw [List.forall_mem_cons] at h
    rw [sortEntryKeys, h.left, ih h.right]

theorem IsPlain.sortKeys_eq {document : Document} (h : document.IsPlain) : document.sortKeys = document := by
  induction h with
  | null => rfl
  | boolean => rfl
  | integer => rfl
  | real => rfl
  | text => rfl
  | sequence _ ih => rw [sortKeys, sortItemKeys_eq ih]
  | mapping ascend _ ih => rw [sortKeys, sortEntryKeys_eq ih, sortEntries_of_keysAscend ascend]

end RowSweep.Document
