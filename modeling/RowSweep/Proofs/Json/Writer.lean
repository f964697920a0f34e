import RowSweep.Proofs.Document
import RowSweep.Proofs.Json.Scalars
import RowSweep.Proofs.Json.Strings

/-!
This module contains the unambiguity of written JSON: no plain document has the text of another one, even if more text
follows it.
-/

namespace RowSweep.Json

open Decimal

def Ends (s : List Char) : Prop :=
  ∀ c ∈ s.head?, isDelimiter c = true

def Unambiguous (d : Document) : Prop :=
  ∀ (d' : Document) (s s' : List Char), d'.IsPlain → Ends s → Ends s' → chars d ++ s = chars d' ++ s' → d = d' ∧ s = s'

def opening? : Document → Option Char
  | .text _ => some '"'
  | .sequence _ => some '['
  | .mapping _ => some '\x7b'
  | _ => none

theorem chars_ne_nil (d : Document) : chars d ≠ [] := by
  cases d with
  | null => simp [chars]
  | boolean b => cases b <;> simp [chars]
  | integer i =>
    rw [chars]
    unfold integerText
    split
    next => exact List.cons_ne_nil _ _
    next => exact Nat.toDigits_ne_nil
  | real x =>
    rw [chars]
    cases x with
    | nan => simp [realText]
    | infinite negative => cases negative <;> simp [realText]
    | finite negative u hu =>
      obtain ⟨c, hhead, -⟩ := head?_magnitudeText hu.dvd
      rw [realText_finite]
      intro hnil
      split at hnil
      next => cases hnil
      next => simp [hnil] at hhead
  | text s => simp [chars, quote]
  | sequence items => simp [chars]
  | mapping entries => simp [chars]
  | foreign numeral => simp [chars]

theorem opening?_eq_none (h : d.IsPlain) : opening? d = none ↔ isScalar d = true := by
  cases h <;> simp [opening?, isScalar, isWord, isNumber]

theorem filter_head?_chars (h : d.IsPlain) : (chars d).head?.filter isDelimiter = opening? d := by
  cases hopening : opening? d with
  | none =>
    have hscalar := (opening?_eq_none h).mp hopening
    rw [Option.filter_eq_none_iff]
    intro c hc
    simp [isDelimiter_of_mem_chars hscalar c (List.mem_of_mem_head? hc)]
  | some c =>
    cases h with
    | text => cases hopening; simp [chars, quote, isDelimiter]
    | sequence => cases hopening; simp [chars, isDelimiter]
    | mapping => cases hopening; simp [chars, isDelimiter]
    | _ => cases hopening

theorem opening?_congr (h : d.IsPlain) (h' : d'.IsPlain) (heq : chars d ++ s = chars d' ++ s') :
    opening? d = opening? d' := by
  have hheads := congrArg List.head? heq
  rw [List.head?_append_of_ne_nil _ (chars_ne_nil d), List.head?_append_of_ne_nil _ (chars_ne_nil d')] at hheads
  rw [← filter_head?_chars h, ← filter_head?_chars h', hheads]

theorem unambiguous_of_isScalar (h : d.IsPlain) (hscalar : isScalar d = true) : Unambiguous d := by
  intro d' s s' h' hs hs' heq
  have hopening := opening?_congr h h' heq
  rw [(opening?_eq_none h).mpr hscalar] at hopening
  have hscalar' := (opening?_eq_none h').mp hopening.symm
  have hspan : ∀ {d s}, isScalar d = true → Ends s →
      (chars d ++ s).takeWhile (!isDelimiter ·) = chars d ∧ (chars d ++ s).dropWhile (!isDelimiter ·) = s := by
    intro d s hscalar hs
    apply span_append
    . intro c hc
      simp [isDelimiter_of_mem_chars hscalar c hc]
    . intro c hc
      simp [hs c hc]
  obtain ⟨htext, hrest⟩ := hspan hscalar hs
  obtain ⟨htext', hrest'⟩ := hspan hscalar' hs'
  rw [heq] at htext hrest
  exact ⟨chars_scalar_injective hscalar hscalar' (htext.symm.trans htext'), hrest.symm.trans hrest'⟩

def itemTail : List Document → List Char
  | [] => [']']
  | items => ',' :: itemChars items

theorem itemChars_cons (item : Document) (rest : List Document) :
    itemChars (item :: rest) = chars item ++ itemTail rest := by
  cases rest <;> rw [itemChars, itemTail] <;> simp

theorem ends_itemTail (rest : List Document) (s : List Char) : Ends (itemTail rest ++ s) := by
  cases rest <;> simp [Ends, itemTail, isDelimiter]

def entryTail : List (String × Document) → List Char
  | [] => ['\x7d']
  | entries => ',' :: entryChars entries

theorem entryChars_cons (entry : String × Document) (rest : List (String × Document)) :
    entryChars (entry :: rest) = quote entry.1 ++ ':' :: (chars entry.2 ++ entryTail rest) := by
  cases rest <;> rw [entryChars, entryTail] <;> simp

theorem ends_entryTail (rest : List (String × Document)) (s : List Char) : Ends (entryTail rest ++ s) := by
  cases rest <;> simp [Ends, entryTail, isDelimiter]

theorem itemChars_append_ne (h : item.IsPlain) : itemChars (item :: rest) ++ s ≠ ']' :: s' := by
  intro heq
  have hheads := congrArg (fun s => s.head?.filter isDelimiter) heq
  rw [itemChars_cons, List.append_assoc, List.head?_append_of_ne_nil _ (chars_ne_nil item), filter_head?_chars h]
    at hheads
  have hopening : opening? item = some ']' := hheads
  cases h <;> simp [opening?] at hopening

theorem itemChars_append_inj {items items' : List Document}
    (hitems : ∀ item ∈ items, Unambiguous item ∧ item.IsPlain) (hitems' : ∀ item ∈ items', item.IsPlain)
    (heq : itemChars items ++ s = itemChars items' ++ s') : items = items' ∧ s = s' := by
  induction items generalizing items' with
  | nil =>
    cases items' with
    | nil => simpa [itemChars] using heq
    | cons item' rest' =>
      rw [List.forall_mem_cons] at hitems'
      exact absurd heq.symm (itemChars_append_ne hitems'.left)
  | cons item rest ih =>
    rw [List.forall_mem_cons] at hitems
    cases items' with
    | nil => exact absurd heq (itemChars_append_ne hitems.left.right)
    | cons item' rest' =>
      rw [List.forall_mem_cons] at hitems'
      rw [itemChars_cons, itemChars_cons, List.append_assoc, List.append_assoc] at heq
      obtain ⟨rfl, htail⟩ :=
        hitems.left.left item' _ _ hitems'.left (ends_itemTail rest s) (ends_itemTail rest' s') heq
      cases rest with
      | nil =>
        cases rest' with
        | nil => simpa [itemTail] using htail
        | cons => simp [itemTail] at htail
      | cons =>
        cases rest' with
        | nil => simp [itemTail] at htail
        | cons =>
          obtain ⟨hrest, hs⟩ := ih hitems.right hitems'.right (List.tail_eq_of_cons_eq htail)
          exact ⟨congrArg _ hrest, hs⟩

theorem entryChars_append_inj {entries entries' : List (String × Document)}
    (hentries : ∀ entry ∈ entries, Unambiguous entry.2) (hentries' : ∀ entry ∈ entries', entry.2.IsPlain)
    (heq : entryChars entries ++ s = entryChars entries' ++ s') : entries = entries' ∧ s = s' := by
  induction entries generalizing entries' with
  | nil =>
    cases entries' with
    | nil => simpa [entryChars] using heq
    | cons entry' rest' => simp [entryChars_cons, entryChars.eq_1, quote] at heq
  | cons entry rest ih =>
    rw [List.forall_mem_cons] at hentries
    cases entries' with
    | nil => simp [entryChars_cons, entryChars.eq_1, quote] at heq
    | cons entry' rest' =>
      rw [List.forall_mem_cons] at hentries'
      rw [entryChars_cons, entryChars_cons, List.append_assoc, List.append_assoc] at heq
      obtain ⟨hkey, hvalue⟩ := quote_append_inj heq
      rw [List.cons_append, List.cons_append, List.append_assoc, List.append_assoc] at hvalue
      have hvalue := List.tail_eq_of_cons_eq hvalue
      obtain ⟨hitem, htail⟩ :=
        hentries.left entry'.2 _ _ hentries'.left (ends_entryTail rest s) (ends_entryTail rest' s') hvalue
      have hentry : entry = entry' := Prod.ext hkey hitem
      subst hentry
      cases rest with
      | nil =>
        cases rest' with
        | nil => simpa [entryTail] using htail
        | cons => simp [entryTail] at htail
      | cons =>
        cases rest' with
        | nil => simp [entryTail] at htail
        | cons =>
          obtain ⟨hrest, hs⟩ := ih hentries.right hentries'.right (List.tail_eq_of_cons_eq htail)
          exact ⟨congrArg _ hrest, hs⟩

theorem unambiguous_of_isPlain (h : d.IsPlain) : Unambiguous d := by
  induction h with
  | null => exact unambiguous_of_isScalar .null rfl
  | boolean b => exact unambiguous_of_isScalar (.boolean b) rfl
  | integer i => exact unambiguous_of_isScalar (.integer i) rfl
  | real x => exact unambiguous_of_isScalar (.real x) rfl
  | text t =>
    intro d' s s' h' hs hs' heq
    have hopening := opening?_congr (.text t) h' heq
    cases h' with
    | text t' =>
      simp only [chars] at heq
      obtain ⟨rfl, hrest⟩ := quote_append_inj heq
      exact ⟨rfl, hrest⟩
    | _ => simp [opening?] at hopening
  | sequence each ih =>
    intro d' s s' h' hs hs' heq
    have hopening := opening?_congr (.sequence each) h' heq
    cases h' with
    | sequence each' =>
      simp only [chars] at heq
      obtain ⟨rfl, hrest⟩ :=
        itemChars_append_inj (fun item hmem => ⟨ih item hmem, each item hmem⟩) each' (List.tail_eq_of_cons_eq heq)
      exact ⟨rfl, hrest⟩
    | _ => simp [opening?] at hopening
  | mapping ascend each ih =>
    intro d' s s' h' hs hs' heq
    have hopening := opening?_congr (.mapping ascend each) h' heq
    cases h' with
    | mapping ascend' each' =>
      simp only [chars] at heq
      obtain ⟨rfl, hrest⟩ := entryChars_append_inj ih each' (List.tail_eq_of_cons_eq heq)
      exact ⟨rfl, hrest⟩
    | _ => simp [opening?] at hopening

theorem write_injective (h : d.IsPlain) (h' : d'.IsPlain) (heq : write d = write d') : d = d' := by
  have hchars := String.ofList_injective heq
  have hnil : chars d ++ [] = chars d' ++ [] := by rw [hchars]
  exact (unambiguous_of_isPlain h d' [] [] h' nofun nofun hnil).left

end RowSweep.Json
