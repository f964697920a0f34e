import RowSweep.Json.Reader
import RowSweep.Json.Writer

/-!
This module contains strings as they are written in JSON: reading gives back the text, whatever follows.
-/

namespace RowSweep.Json

open Text

theorem hexValue?_hexDigit (n : Nat) : hexValue? (hexDigit n) = some (n % 16) := by
  have hdigits : ∀ k < 16, hexValue? (Nat.digitChar k) = some k := by decide
  exact hdigits (n % 16) (Nat.mod_lt n (by decide))

theorem hexUnit?_unitEscape (hn : n < 0x10000) (s : List Char) :
    hexUnit? (hexDigit (n / 4096) :: hexDigit (n / 256) :: hexDigit (n / 16) :: hexDigit n :: s) = some (n, s) := by
  simp only [hexUnit?, hexValue?_hexDigit, Option.bind_eq_bind, Option.bind_some, Option.pure_def, Option.some.injEq,
    Prod.mk.injEq, and_true]
  omega

theorem isValidChar_toNat (c : Char) : c.toNat < 0xD800 ∨ (0xDFFF < c.toNat ∧ c.toNat < 0x110000) :=
  c.valid

theorem unicodeEscape?_of_lt (c : Char) (hc : c.toNat < 0x10000) (s : List Char) :
    unicodeEscape? (hexDigit (c.toNat / 4096) :: hexDigit (c.toNat / 256) :: hexDigit (c.toNat / 16) ::
      hexDigit c.toNat :: s) = some (c, s) := by
  have hvalid := isValidChar_toNat c
  have hhigh : isHighHalf c.toNat = false := by
    simp [isHighHalf]
    omega
  have hlow : isLowHalf c.toNat = false := by
    simp [isLowHalf]
    omega
  have hunit : ofUnit c.toNat = c := by simp [ofUnit, hhigh, hlow]
  unfold unicodeEscape?
  rw [hexUnit?_unitEscape hc]
  simp only [Option.bind_eq_bind, Option.bind_some, hunit, hhigh, Bool.false_and]
  split
  next => split <;> rfl
  next => rfl

theorem unicodeEscape?_halves (hhigh : isHighHalf high = true) (hlow : isLowHalf low = true) (s : List Char) :
    unicodeEscape? (hexDigit (high / 4096) :: hexDigit (high / 256) :: hexDigit (high / 16) :: hexDigit high ::
      '\\' :: 'u' :: hexDigit (low / 4096) :: hexDigit (low / 256) :: hexDigit (low / 16) :: hexDigit low :: s) =
      some (joinHalves high low, s) := by
  have hhighlt : high < 0x10000 := by
    simp [isHighHalf] at hhigh
    omega
  have hlowlt : low < 0x10000 := by
    simp [isLowHalf] at hlow
    omega
  unfold unicodeEscape?
  rw [hexUnit?_unitEscape hhighlt]
  simp only [Option.bind_eq_bind, Option.bind_some]
  rw [hexUnit?_unitEscape hlowlt]
  simp [hhigh, hlow]

theorem exists_halves (c : Char) (hc : ¬ c.toNat < 0x10000) :
    isHighHalf (0xD800 + (c.toNat - 0x10000) / 0x400) = true ∧ isLowHalf (0xDC00 + (c.toNat - 0x10000) % 0x400) = true ∧
      joinHalves (0xD800 + (c.toNat - 0x10000) / 0x400) (0xDC00 + (c.toNat - 0x10000) % 0x400) = c := by
  have hvalid := isValidChar_toNat c
  refine ⟨?_, ?_, ?_⟩
  . simp only [isHighHalf, Bool.and_eq_true, decide_eq_true_eq]
    omega
  . simp only [isLowHalf, Bool.and_eq_true, decide_eq_true_eq]
    omega
  . have hn : 0x10000 + (0xD800 + (c.toNat - 0x10000) / 0x400 - 0xD800) * 0x400 +
        (0xDC00 + (c.toNat - 0x10000) % 0x400 - 0xDC00) = c.toNat := by omega
    unfold joinHalves
    rw [hn, Char.ofNat_toNat]

theorem stringBody_escape (fuel : Nat) (done : List Char) (c : Char) (s : List Char) :
    stringBody (fuel + 1) done (escape c ++ s) = stringBody fuel (c :: done) s := by
  unfold escape
  split
  next => rfl
  next => rfl
  next => rfl
  next => rfl
  next => rfl
  next => rfl
  next => rfl
  next hquote hslash _ _ _ _ _ =>
    dsimp only
    split
    next hprintable =>
      have hlt : ¬ c < ' ' := Char.not_lt.mpr hprintable.left
      rw [List.singleton_append]
      conv =>
        lhs
        unfold stringBody
      split
      next heq => exact absurd (List.head_eq_of_cons_eq heq) hquote
      next heq => exact absurd (List.head_eq_of_cons_eq heq) hslash
      next heq => exact absurd (List.head_eq_of_cons_eq heq) hslash
      next heq =>
        obtain ⟨rfl, rfl⟩ := List.cons.inj heq
        have hslash : (c == '\\') = false := beq_false_of_ne hslash
        rw [hslash, decide_eq_false hlt]
        rfl
      next heq => cases heq
    next =>
      split
      next hlt =>
        unfold unitEscape
        simp only [List.cons_append, List.nil_append]
        rw [stringBody, unicodeEscape?_of_lt c hlt]
      next hge =>
        obtain ⟨hhigh, hlow, hjoin⟩ := exists_halves c hge
        unfold unitEscape
        simp only [List.cons_append, List.nil_append]
        rw [stringBody, unicodeEscape?_halves hhigh hlow, hjoin]

theorem stringBody_quoted (cs s : List Char) (fuel : Nat) (done : List Char) (hfuel : cs.length < fuel) :
    stringBody fuel done (cs.flatMap escape ++ '"' :: s) = .ok (done.reverse ++ cs, s) := by
  induction cs generalizing fuel done with
  | nil =>
    cases fuel with
    | zero => contradiction
    | succ fuel => simp [stringBody]
  | cons c cs ih =>
    cases fuel with
    | zero => contradiction
    | succ fuel =>
      rw [List.flatMap_cons, List.append_assoc, stringBody_escape, ih fuel (c :: done) (Nat.lt_of_succ_lt_succ hfuel)]
      simp

theorem quote_append_inj (h : quote text ++ s = quote text' ++ s') : text = text' ∧ s = s' := by
  have hread := stringBody_quoted text.toList s (text.length + text'.length + 1) []
    (by rw [String.length_toList]; omega)
  have hread' := stringBody_quoted text'.toList s' (text.length + text'.length + 1) []
    (by rw [String.length_toList]; omega)
  have hinside : text.toList.flatMap escape ++ '"' :: s = text'.toList.flatMap escape ++ '"' :: s' := by
    simpa [quote] using h
  rw [hinside, hread'] at hread
  have hpair := Except.ok.inj hread
  exact ⟨(String.toList_injective (congrArg Prod.fst hpair)).symm, (congrArg Prod.snd hpair).symm⟩

end RowSweep.Json
