import RowSweep.Json.Writer
import RowSweep.Proofs.Decimal.Layout

/-!
This module contains the words and numbers of written JSON: no two of them have one text, and none has a character that
stands between values.
-/

namespace RowSweep.Json

open Decimal Text

/-!
### Numbers and words
-/

theorem mem_integerText (i : Int) : ∀ c ∈ integerText i, isAsciiDigit c = true ∨ c = '-' := by
  intro c hc
  unfold integerText at hc
  split at hc
  next =>
    cases List.mem_cons.mp hc with
    | inl hc => exact Or.inr hc
    | inr hc => exact Or.inl (isDigits_toDigits _ c hc)
  next => exact Or.inl (isDigits_toDigits _ c hc)

theorem head?_toDigits (n : Nat) : ∀ c ∈ (Nat.toDigits 10 n).head?, isAsciiDigit c = true := by
  intro c hc
  exact isDigits_toDigits n c (List.mem_of_head? hc)

theorem integerText_injective : Function.Injective integerText := by
  intro i j h
  have hsign : ∀ n m, '-' :: Nat.toDigits 10 n ≠ Nat.toDigits 10 m := by
    intro n m h
    have hhead := head?_toDigits m '-'
    rw [← h] at hhead
    simp [isAsciiDigit] at hhead
  have hdigits : ∀ n m, Nat.toDigits 10 n = Nat.toDigits 10 m → n = m := by
    intro n m h
    rw [← ofDigits_toDigits n, h, ofDigits_toDigits]
  unfold integerText at h
  split at h
  next =>
    split at h
    next =>
      have hmagnitude := hdigits _ _ (List.tail_eq_of_cons_eq h)
      omega
    next => exact absurd h (hsign _ _)
  next =>
    split at h
    next => exact absurd h.symm (hsign _ _)
    next =>
      have hmagnitude := hdigits _ _ h
      omega

theorem realText_finite (negative : Bool) (u : Nat) (hu : Binary64.Fits u) :
    realText (.finite negative u hu) =
      if negative then '-' :: Layout.exact.magnitudeText u else Layout.exact.magnitudeText u := by
  show (String.ofList (if negative then '-' :: Layout.exact.magnitudeText u
    else Layout.exact.magnitudeText u)).toList = _
  rw [String.toList_ofList]

theorem isNumeric_realText (negative : Bool) (u : Nat) (hu : Binary64.Fits u) :
    ∀ c ∈ realText (.finite negative u hu), isNumeric c = true := by
  obtain ⟨d, hread, -⟩ := unsigned?_magnitudeText hu.dvd
  have hnumeric := isNumeric_of_unsigned? hread
  rw [realText_finite]
  split
  next =>
    rw [List.forall_mem_cons]
    exact ⟨rfl, hnumeric⟩
  next => exact hnumeric

theorem head?_magnitudeText (hg : 2 ^ Binary64.spareBits u ∣ u) :
    ∃ c, (Layout.exact.magnitudeText u).head? = some c ∧ c ≠ '-' := by
  obtain ⟨d, hread, -⟩ := unsigned?_magnitudeText hg
  obtain ⟨c, hhead, hc⟩ := head?_of_unsigned? hread
  refine ⟨c, hhead, ?_⟩
  intro heq
  subst heq
  simp [isAsciiDigit] at hc

theorem realText_finite_injective {negative negative' : Bool} {u u' : Nat} {hu : Binary64.Fits u}
    {hu' : Binary64.Fits u'}
    (h : realText (.finite negative u hu) = realText (.finite negative' u' hu')) : negative = negative' ∧ u = u' := by
  obtain ⟨c, hhead, hc⟩ := head?_magnitudeText hu.dvd
  obtain ⟨c', hhead', hc'⟩ := head?_magnitudeText hu'.dvd
  rw [realText_finite, realText_finite] at h
  cases negative with
  | false =>
    cases negative' with
    | false => exact ⟨rfl, magnitudeText_injective hu.dvd hu'.dvd h⟩
    | true =>
      have hheads := congrArg List.head? h
      simp [hhead] at hheads
      exact absurd hheads hc
  | true =>
    cases negative' with
    | false =>
      have hheads := congrArg List.head? h
      simp [hhead'] at hheads
      exact absurd hheads.symm hc'
    | true => exact ⟨rfl, magnitudeText_injective hu.dvd hu'.dvd (List.tail_eq_of_cons_eq h)⟩

theorem exists_letter_realText {x : Binary64} (hx : x.isFinite = false) : ∃ c ∈ realText x, isNumeric c = false := by
  cases x with
  | nan => exact ⟨'N', by decide⟩
  | infinite negative =>
    refine ⟨'I', ?_, by decide⟩
    cases negative <;> decide
  | finite => cases hx

theorem realText_injective : Function.Injective realText := by
  have hword : ∀ {x y : Binary64}, x.isFinite = false → y.isFinite = true → realText x ≠ realText y := by
    intro x y hx hy h
    obtain ⟨c, hc, hletter⟩ := exists_letter_realText hx
    obtain ⟨negative, u, hu, rfl⟩ := Binary64.exists_of_isFinite hy
    rw [h] at hc
    rw [isNumeric_realText negative u hu c hc] at hletter
    cases hletter
  intro x y h
  cases hx : x.isFinite with
  | false =>
    cases hy : y.isFinite with
    | false =>
      cases x with
      | nan =>
        cases y with
        | nan => rfl
        | infinite negative => cases negative <;> exact absurd h (by decide)
        | finite => cases hy
      | infinite negative =>
        cases y with
        | nan => cases negative <;> exact absurd h (by decide)
        | infinite negative' => cases negative <;> cases negative' <;> first | rfl | exact absurd h (by decide)
        | finite => cases hy
      | finite => cases hx
    | true => exact absurd h (hword hx hy)
  | true =>
    cases hy : y.isFinite with
    | false => exact absurd h.symm (hword hy hx)
    | true =>
      obtain ⟨negative, u, hu, rfl⟩ := Binary64.exists_of_isFinite hx
      obtain ⟨negative', u', hu', rfl⟩ := Binary64.exists_of_isFinite hy
      obtain ⟨rfl, rfl⟩ := realText_finite_injective h
      rfl

theorem integerText_ne_realText (i : Int) (x : Binary64) : integerText i ≠ realText x := by
  intro h
  cases hx : x.isFinite with
  | false =>
    obtain ⟨c, hc, hletter⟩ := exists_letter_realText hx
    rw [← h] at hc
    cases mem_integerText i c hc with
    | inl hdigit => simp [isNumeric, hdigit] at hletter
    | inr heq =>
      rw [heq] at hletter
      cases hletter
  | true =>
    obtain ⟨negative, u, hu, rfl⟩ := Binary64.exists_of_isFinite hx
    obtain ⟨c, hc, hmark⟩ := exists_mark_magnitudeText u
    have hmem : c ∈ integerText i := by
      rw [h, realText_finite]
      split
      next => exact List.mem_cons_of_mem _ hc
      next => exact hc
    cases hmark with
    | inl heq =>
      subst heq
      simpa [isAsciiDigit] using mem_integerText i _ hmem
    | inr heq =>
      subst heq
      simpa [isAsciiDigit] using mem_integerText i _ hmem

/-!
### Scalars
-/

def isWord : Document → Bool
  | .null | .boolean _ => true
  | _ => false

def isNumber : Document → Bool
  | .integer _ | .real _ => true
  | _ => false

theorem chars_word_injective (h : isWord d = true) (h' : isWord d' = true) (heq : chars d = chars d') : d = d' := by
  cases d with
  | null =>
    cases d' with
    | null => rfl
    | boolean b => cases b <;> simp [chars] at heq
    | _ => cases h'
  | boolean b =>
    cases d' with
    | null => cases b <;> simp [chars] at heq
    | boolean b' =>
      cases b <;> cases b'
      . rfl
      . simp [chars] at heq
      . simp [chars] at heq
      . rfl
    | _ => cases h'
  | _ => cases h

theorem chars_number_injective (h : isNumber d = true) (h' : isNumber d' = true) (heq : chars d = chars d') :
    d = d' := by
  cases d with
  | integer i =>
    cases d' with
    | integer j =>
      simp only [chars] at heq
      rw [integerText_injective heq]
    | real x =>
      simp only [chars] at heq
      exact absurd heq (integerText_ne_realText i x)
    | _ => cases h'
  | real x =>
    cases d' with
    | integer j =>
      simp only [chars] at heq
      exact absurd heq.symm (integerText_ne_realText j x)
    | real y =>
      simp only [chars] at heq
      rw [realText_injective heq]
    | _ => cases h'
  | _ => cases h

theorem isNumeric_of_mem_integerText (i : Int) : ∀ c ∈ integerText i, isNumeric c = true := by
  intro c hc
  cases mem_integerText i c hc with
  | inl hdigit => simp [isNumeric, hdigit]
  | inr heq => simp [isNumeric, heq]

theorem not_mem_chars_number (h : isNumber d = true) (hc : c = 'l' ∨ c = 'r') : c ∉ chars d := by
  -- Each word has a letter that no number has.
  have hletter : isNumeric c = false := by
    cases hc with
    | inl heq => simp [heq, isNumeric, isAsciiDigit]
    | inr heq => simp [heq, isNumeric, isAsciiDigit]
  intro hmem
  cases d with
  | integer i =>
    simp only [chars] at hmem
    rw [isNumeric_of_mem_integerText i c hmem] at hletter
    cases hletter
  | real x =>
    simp only [chars] at hmem
    cases x with
    | nan => cases hc <;> simp_all [realText]
    | infinite negative => cases hc <;> cases negative <;> simp_all [realText]
    | finite negative u hu =>
      rw [isNumeric_realText negative u hu c hmem] at hletter
      cases hletter
  | _ => cases h

theorem exists_mem_chars_word (h : isWord d = true) : ∃ c ∈ chars d, c = 'l' ∨ c = 'r' := by
  cases d with
  | null => exact ⟨'l', by simp [chars], Or.inl rfl⟩
  | boolean b =>
    cases b with
    | false => exact ⟨'l', by simp [chars], Or.inl rfl⟩
    | true => exact ⟨'r', by simp [chars], Or.inr rfl⟩
  | _ => cases h

theorem chars_word_ne_number (h : isWord d = true) (h' : isNumber d' = true) : chars d ≠ chars d' := by
  obtain ⟨c, hmem, hc⟩ := exists_mem_chars_word h
  intro heq
  rw [heq] at hmem
  exact not_mem_chars_number h' hc hmem

def isScalar (d : Document) : Bool :=
  isWord d || isNumber d

theorem chars_scalar_injective (h : isScalar d = true) (h' : isScalar d' = true) (heq : chars d = chars d') :
    d = d' := by
  cases Bool.or_eq_true_iff.mp h with
  | inl hword =>
    cases Bool.or_eq_true_iff.mp h' with
    | inl hword' => exact chars_word_injective hword hword' heq
    | inr hnumber' => exact absurd heq (chars_word_ne_number hword hnumber')
  | inr hnumber =>
    cases Bool.or_eq_true_iff.mp h' with
    | inl hword' => exact absurd heq.symm (chars_word_ne_number hword' hnumber)
    | inr hnumber' => exact chars_number_injective hnumber hnumber' heq

def isDelimiter (c : Char) : Bool :=
  ['"', '[', ']', '\x7b', '\x7d', ',', ':'].contains c

theorem isDelimiter_of_isNumeric (hc : isNumeric c = true) : isDelimiter c = false := by
  have hdelimiters : ∀ d ∈ ['"', '[', ']', '\x7b', '\x7d', ',', ':'], isNumeric d = false := by
    simp [isNumeric, isAsciiDigit]
  rw [isDelimiter, List.contains_eq_mem, decide_eq_false_iff_not]
  intro hmem
  rw [hdelimiters c hmem] at hc
  cases hc

theorem isDelimiter_of_mem_realText (x : Binary64) : ∀ c ∈ realText x, isDelimiter c = false := by
  cases x with
  | nan => simp [realText, isDelimiter]
  | infinite negative => cases negative <;> simp [realText, isDelimiter]
  | finite negative u hu =>
    intro c hc
    exact isDelimiter_of_isNumeric (isNumeric_realText negative u hu c hc)

theorem isDelimiter_of_mem_chars (h : isScalar d = true) : ∀ c ∈ chars d, isDelimiter c = false := by
  cases d with
  | null => simp [chars, isDelimiter]
  | boolean b => cases b <;> simp [chars, isDelimiter]
  | integer i =>
    intro c hc
    simp only [chars] at hc
    exact isDelimiter_of_isNumeric (isNumeric_of_mem_integerText i c hc)
  | real x =>
    simp only [chars]
    exact isDelimiter_of_mem_realText x
  | _ => cases h

end RowSweep.Json
