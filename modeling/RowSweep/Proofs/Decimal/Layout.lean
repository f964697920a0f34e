import RowSweep.Decimal.Layout
import RowSweep.Decimal.Reader
import RowSweep.Proofs.Decimal.Shortest

/-!
This module contains the reading of numbers as they are written: the text of a magnitude is a decimal that reads back
as this magnitude. So two values never share a text.
-/

namespace RowSweep.Decimal

open Binary64 Text

def value (d : Decimal) : ℚ :=
  d.digits * 10 ^ d.exponent

theorem gridUnits_eq (k : Int) : (gridUnits k : ℚ) = unitsPerOne * 10 ^ k * gridParts k := by
  have hexponent : (k.toNat : Int) = k + (-k).toNat := by omega
  unfold gridUnits gridParts
  generalize unitsPerOne = one
  push_cast
  rw [mul_assoc, ← zpow_natCast, ← zpow_natCast, ← zpow_add₀ (by decide), ← hexponent]

theorem readsBack_congr {d d' : Decimal} (h : d.value = d'.value) (u : Nat) :
    readsBack u d.digits d.exponent = readsBack u d'.digits d'.exponent := by
  have hcross : d.digits * gridUnits d.exponent * gridParts d'.exponent =
      d'.digits * gridUnits d'.exponent * gridParts d.exponent := by
    unfold value at h
    have hcast : (d.digits * gridUnits d.exponent * gridParts d'.exponent : ℚ) =
        d'.digits * gridUnits d'.exponent * gridParts d.exponent := by
      rw [gridUnits_eq, gridUnits_eq]
      linear_combination (unitsPerOne * gridParts d.exponent * gridParts d'.exponent : ℚ) * h
    exact_mod_cast hcast
  unfold readsBack
  rw [roundUnits_congr (gridParts_pos _) (gridParts_pos _) hcross]

/-!
### Digits
-/

theorem isAsciiDigit_of_mem_toDigits (hc : c ∈ Nat.toDigits 10 n) : isAsciiDigit c = true := by
  have hdigit := Nat.isDigit_of_mem_toDigits (by decide) (by decide) hc
  simpa [isAsciiDigit, Char.isDigit, Char.le_def] using hdigit

theorem ofDigits_toDigits (n : Nat) : ofDigits (Nat.toDigits 10 n) = n :=
  Nat.ofDigitChars_ten_toDigits

theorem ofDigits_append_zeros (ds : List Char) (z : Nat) :
    ofDigits (ds ++ List.replicate z '0') = ofDigits ds * 10 ^ z := by
  show Nat.ofDigitChars 10 (ds ++ List.replicate z '0') 0 = Nat.ofDigitChars 10 ds 0 * 10 ^ z
  rw [Nat.ofDigitChars_append, Nat.ofDigitChars_replicate_zero, Nat.mul_comm]

theorem ofDigits_zeros_append (z : Nat) (ds : List Char) : ofDigits (List.replicate z '0' ++ ds) = ofDigits ds := by
  show Nat.ofDigitChars 10 (List.replicate z '0' ++ ds) 0 = Nat.ofDigitChars 10 ds 0
  rw [Nat.ofDigitChars_append, Nat.ofDigitChars_replicate_zero, Nat.mul_zero]

def IsDigits (ds : List Char) : Prop :=
  ∀ c ∈ ds, isAsciiDigit c = true

theorem IsDigits.append (hds : IsDigits ds) (hds' : IsDigits ds') : IsDigits (ds ++ ds') := by
  intro c hc
  cases List.mem_append.mp hc with
  | inl hc => exact hds c hc
  | inr hc => exact hds' c hc

theorem isDigits_zeros (z : Nat) : IsDigits (List.replicate z '0') := by
  intro c hc
  rw [List.eq_of_mem_replicate hc]
  rfl

theorem isDigits_toDigits (n : Nat) : IsDigits (Nat.toDigits 10 n) :=
  fun _ hc => isAsciiDigit_of_mem_toDigits hc

theorem span_append {ds s : List Char} {p : Char → Bool} (hds : ∀ c ∈ ds, p c = true)
    (hs : ∀ c ∈ s.head?, p c = false) :
    (ds ++ s).takeWhile p = ds ∧ (ds ++ s).dropWhile p = s := by
  have hrest : s.takeWhile p = [] ∧ s.dropWhile p = s := by
    cases s with
    | nil => exact ⟨rfl, rfl⟩
    | cons c s => simp [hs c rfl]
  rw [List.takeWhile_append_of_pos hds, List.dropWhile_append_of_pos hds, hrest.left, hrest.right, List.append_nil]
  exact ⟨rfl, rfl⟩

theorem spanDigits_append (hds : IsDigits ds) (hs : ∀ c ∈ s.head?, isAsciiDigit c = false) :
    spanDigits (ds ++ s) = (ds, s) := by
  have hspan := span_append hds hs
  unfold spanDigits
  rw [hspan.left, hspan.right]

/-!
### Numbers
-/

theorem unsigned?_point (hwhole : IsDigits whole) (hne : whole ≠ []) (hfraction : IsDigits fraction)
    (hs : ∀ c ∈ s.head?, isAsciiDigit c = false) :
    unsigned? (whole ++ '.' :: (fraction ++ s)) =
      (exponent? s).map fun e => ⟨ofDigits (whole ++ fraction), e - fraction.length⟩ := by
  unfold unsigned?
  rw [spanDigits_append hwhole (by simp [isAsciiDigit])]
  simp [spanDigits_append hfraction hs, hne]

theorem unsigned?_whole (hwhole : IsDigits whole) (hne : whole ≠ []) (hs : ∀ c ∈ s.head?, isAsciiDigit c = false)
    (hpoint : ∀ c ∈ s.head?, c ≠ '.') :
    unsigned? (whole ++ s) = (exponent? s).map fun e => ⟨ofDigits whole, e⟩ := by
  unfold unsigned?
  rw [spanDigits_append hwhole hs]
  cases s with
  | nil => simp [hne]
  | cons c s =>
    have hc := hpoint c rfl
    simp [hne, hc]

theorem unsigned?_fraction (hwhole : IsDigits whole) (hne : whole ≠ []) (hfraction : IsDigits fraction) :
    unsigned? (whole ++ '.' :: fraction) = some ⟨ofDigits (whole ++ fraction), -fraction.length⟩ := by
  have hread := unsigned?_point (s := []) hwhole hne hfraction (by simp)
  rw [List.append_nil] at hread
  rw [hread]
  simp [exponent?]

theorem head?_exponentText (e : Int) : (Layout.exponentText e).head? = some 'e' := by
  unfold Layout.exponentText
  rfl

theorem exponent?_exponentText (e : Int) : exponent? (Layout.exponentText e) = some e := by
  have hpadded : ∃ ds, Layout.exponentText e = 'e' :: (if e < 0 then '-' else '+') :: ds ∧
      IsDigits ds ∧ ds ≠ [] ∧ ofDigits ds = e.natAbs := by
    unfold Layout.exponentText
    dsimp only
    refine ⟨_, rfl, ?_⟩
    split
    next =>
      have hzero := (isDigits_zeros 1).append (isDigits_toDigits e.natAbs)
      have hvalue := ofDigits_zeros_append 1 (Nat.toDigits 10 e.natAbs)
      rw [ofDigits_toDigits] at hvalue
      exact ⟨hzero, List.cons_ne_nil _ _, hvalue⟩
    next => exact ⟨isDigits_toDigits _, Nat.toDigits_ne_nil, ofDigits_toDigits _⟩
  obtain ⟨ds, htext, hds, hne, hvalue⟩ := hpadded
  have hall : ds.all isAsciiDigit = true := List.all_eq_true.mpr hds
  rw [htext]
  by_cases hneg : e < 0
  . simp [exponent?, hneg, takeSign, hne, hall, hvalue, abs_of_neg]
  . simp [exponent?, hneg, takeSign, hne, hall, hvalue]
    omega

def placedValue (ds : List Char) (leading : Int) : ℚ :=
  ofDigits ds * 10 ^ (leading + 1 - ds.length)

theorem unsigned?_positionalText (hds : IsDigits ds) (hne : ds ≠ []) (leading : Int) :
    ∃ d, unsigned? (Layout.positionalText true ds leading) = some d ∧ d.value = placedValue ds leading := by
  unfold Layout.positionalText placedValue value
  dsimp only
  split
  next hneg =>
    have hread := unsigned?_fraction (isDigits_zeros 1) (by simp) ((isDigits_zeros (-leading - 1).toNat).append hds)
    refine ⟨_, hread, ?_⟩
    rw [← List.append_assoc, ← List.replicate_add, ofDigits_zeros_append, List.length_append, List.length_replicate]
    dsimp only
    congr 2
    omega
  next hpos =>
    split
    next hle =>
      have hread := unsigned?_fraction (hds.append (isDigits_zeros (leading.toNat + 1 - ds.length))) (by simp [hne])
        (isDigits_zeros 1)
      refine ⟨_, hread, ?_⟩
      have hexponent : leading + 1 - ds.length = (leading.toNat + 1 - ds.length : Nat) := by omega
      rw [List.append_assoc, ← List.replicate_add, ofDigits_append_zeros, hexponent, zpow_natCast, pow_succ]
      simp only [List.length_replicate, Nat.cast_mul, Nat.cast_pow, Nat.cast_ofNat, Nat.cast_one, zpow_neg_one]
      ring
    next hlt =>
      have hwhole : IsDigits (ds.take (leading.toNat + 1)) := fun c hc => hds c (List.mem_of_mem_take hc)
      have hfraction : IsDigits (ds.drop (leading.toNat + 1)) := fun c hc => hds c (List.mem_of_mem_drop hc)
      refine ⟨_, unsigned?_fraction hwhole (by simp [hne]) hfraction, ?_⟩
      rw [List.take_append_drop, List.length_drop]
      dsimp only
      congr 2
      omega

theorem unsigned?_scientificText (hds : IsDigits ds) (hne : ds ≠ []) (leading : Int) :
    ∃ d, unsigned? (Layout.scientificText ds leading) = some d ∧ d.value = placedValue ds leading := by
  have hdigit : ∀ c ∈ (Layout.exponentText leading).head?, isAsciiDigit c = false := by
    rw [head?_exponentText]
    simp [isAsciiDigit]
  have hpoint : ∀ c ∈ (Layout.exponentText leading).head?, c ≠ '.' := by
    rw [head?_exponentText]
    simp
  unfold placedValue value Layout.scientificText
  split
  next => contradiction
  next c =>
    have hread := unsigned?_whole hds hne hdigit hpoint
    rw [exponent?_exponentText] at hread
    exact ⟨_, hread, by simp⟩
  next c rest _ =>
    have hwhole : IsDigits [c] := fun c' hc => hds c' (List.mem_cons.mpr (Or.inl (List.mem_singleton.mp hc)))
    have hfraction : IsDigits rest := fun c' hc => hds c' (List.mem_cons_of_mem c hc)
    have hread := unsigned?_point hwhole (List.cons_ne_nil _ _) hfraction hdigit
    rw [exponent?_exponentText] at hread
    refine ⟨_, hread, ?_⟩
    simp

theorem exists_eq_trim_append (h : ofDigits ds ≠ 0) :
    ∃ z, ds = Layout.trim ds ++ List.replicate z '0' ∧ Layout.trim ds ≠ [] := by
  have hsplit : ds = (ds.reverse.dropWhile (· == '0')).reverse ++ (ds.reverse.takeWhile (· == '0')).reverse := by
    rw [← List.reverse_append, List.takeWhile_append_dropWhile, List.reverse_reverse]
  have hzeros : (ds.reverse.takeWhile (· == '0')).reverse =
      List.replicate (ds.reverse.takeWhile (· == '0')).reverse.length '0' := by
    apply List.eq_replicate_of_mem
    intro c hc
    rw [List.mem_reverse] at hc
    simpa using List.mem_takeWhile_imp hc
  rw [hzeros] at hsplit
  unfold Layout.trim
  split
  next hnil =>
    rw [hnil, List.nil_append] at hsplit
    rw [hsplit, ← List.append_nil (List.replicate _ _), ofDigits_zeros_append] at h
    contradiction
  next hne => exact ⟨_, hsplit, hne⟩

theorem digitText_exact (hd : d.digits ≠ 0) :
    IsDigits (Layout.exact.digitText d) ∧ Layout.exact.digitText d ≠ [] ∧
      placedValue (Layout.exact.digitText d) (d.exponent + digitCount d.digits - 1) = d.value := by
  have hnonzero : ofDigits (Nat.toDigits 10 d.digits) ≠ 0 := by rwa [ofDigits_toDigits]
  have htext : Layout.exact.digitText d = Layout.trim (Nat.toDigits 10 d.digits) := by
    simp [Layout.digitText, Layout.exact, hd]
  obtain ⟨z, hz, hne⟩ := exists_eq_trim_append hnonzero
  have hvalue := ofDigits_toDigits d.digits
  have hcount : digitCount d.digits = (Layout.trim (Nat.toDigits 10 d.digits)).length + z := by
    have hlength := congrArg List.length hz
    rwa [List.length_append, List.length_replicate] at hlength
  have hdigits : IsDigits (Layout.trim (Nat.toDigits 10 d.digits)) := by
    intro c hc
    apply isDigits_toDigits d.digits c
    rw [hz]
    exact List.mem_append_left _ hc
  rw [htext, hcount]
  generalize Layout.trim (Nat.toDigits 10 d.digits) = ds at *
  rw [hz, ofDigits_append_zeros] at hvalue
  refine ⟨hdigits, hne, ?_⟩
  unfold placedValue value
  have hexponent : d.exponent + (ds.length + z : Nat) - 1 + 1 - ds.length = z + d.exponent := by omega
  rw [hexponent, zpow_add₀ (by decide), ← hvalue, zpow_natCast]
  push_cast
  ring

theorem unsigned?_magnitudeText_zero : unsigned? (Layout.exact.magnitudeText 0) = some ⟨0, -1⟩ := by
  decide

attribute [local irreducible] shortest

theorem magnitudeText_exact (hu : u ≠ 0) :
    Layout.exact.magnitudeText u =
      let ds := Layout.exact.digitText (shortest u)
      let leading := (shortest u).exponent + digitCount (shortest u).digits - 1
      if -4 ≤ leading ∧ leading < 16 then Layout.positionalText true ds leading
      else Layout.scientificText ds leading := by
  unfold Layout.magnitudeText
  simp only [Layout.exact, hu, if_false]

theorem digits_shortest (hg : 2 ^ spareBits u ∣ u) (hu : u ≠ 0) : (shortest u).digits ≠ 0 := by
  intro hzero
  have hback := readsBack_shortest hg
  rw [hzero] at hback
  unfold readsBack at hback
  rw [Nat.zero_mul, roundUnits_zero, beq_iff_eq] at hback
  exact hu hback.symm

theorem unsigned?_magnitudeText (hg : 2 ^ spareBits u ∣ u) :
    ∃ d, unsigned? (Layout.exact.magnitudeText u) = some d ∧ readsBack u d.digits d.exponent = true := by
  by_cases hu : u = 0
  . subst hu
    refine ⟨_, unsigned?_magnitudeText_zero, ?_⟩
    simp [readsBack, roundUnits_zero]
  . obtain ⟨hdigits, hne, hvalue⟩ := digitText_exact (digits_shortest hg hu)
    have hread : ∃ d, unsigned? (Layout.exact.magnitudeText u) = some d ∧ d.value = (shortest u).value := by
      rw [← hvalue, magnitudeText_exact hu]
      dsimp only
      split
      next => exact unsigned?_positionalText hdigits hne _
      next => exact unsigned?_scientificText hdigits hne _
    obtain ⟨d, hread, heq⟩ := hread
    refine ⟨d, hread, ?_⟩
    rw [readsBack_congr heq]
    exact readsBack_shortest hg

theorem magnitudeText_injective (hg : 2 ^ spareBits u ∣ u) (hg' : 2 ^ spareBits u' ∣ u')
    (h : Layout.exact.magnitudeText u = Layout.exact.magnitudeText u') : u = u' := by
  obtain ⟨d, hread, hback⟩ := unsigned?_magnitudeText hg
  obtain ⟨d', hread', hback'⟩ := unsigned?_magnitudeText hg'
  rw [h, hread'] at hread
  rw [Option.some.inj hread] at hback'
  unfold readsBack at hback hback'
  rw [beq_iff_eq] at hback hback'
  rw [← hback, ← hback']

/-!
### Characters
-/

def isNumeric (c : Char) : Bool :=
  isAsciiDigit c || c == '.' || c == 'e' || c == 'E' || c == '+' || c == '-'

theorem isNumeric_of_isDigits (hds : IsDigits ds) : ∀ c ∈ ds, isNumeric c = true := by
  intro c hc
  simp [isNumeric, hds c hc]

theorem isNumeric_of_takeSign (h : ∀ c ∈ (takeSign s).2, isNumeric c = true) : ∀ c ∈ s, isNumeric c = true := by
  unfold takeSign at h
  split at h
  next => simpa [isNumeric] using h
  next => simpa [isNumeric] using h
  next => exact h

theorem isNumeric_of_exponent? (h : exponent? s = some e) : ∀ c ∈ s, isNumeric c = true := by
  cases s with
  | nil => simp
  | cons c s =>
    unfold exponent? at h
    dsimp only at h
    split at h
    next hc =>
      split at h
      next => cases h
      next hds =>
        have hall : ∀ c ∈ (takeSign s).2, isAsciiDigit c = true := by simp_all
        have hmark : isNumeric c = true := by
          rw [Bool.or_eq_true] at hc
          cases hc with
          | inl hc => simp [isNumeric, hc]
          | inr hc => simp [isNumeric, hc]
        rw [List.forall_mem_cons]
        exact ⟨hmark, isNumeric_of_takeSign (isNumeric_of_isDigits hall)⟩
    next => cases h

theorem isDigits_spanDigits (s : List Char) : IsDigits (spanDigits s).1 := by
  intro c hc
  exact List.mem_takeWhile_imp hc

theorem isNumeric_of_spanDigits (h : ∀ c ∈ (spanDigits s).2, isNumeric c = true) : ∀ c ∈ s, isNumeric c = true := by
  have hsplit : s = (spanDigits s).1 ++ (spanDigits s).2 := List.takeWhile_append_dropWhile.symm
  rw [hsplit, List.forall_mem_append]
  exact ⟨isNumeric_of_isDigits (isDigits_spanDigits s), h⟩

theorem isNumeric_of_unsigned? (h : unsigned? s = some d) : ∀ c ∈ s, isNumeric c = true := by
  apply isNumeric_of_spanDigits
  unfold unsigned? at h
  dsimp only at h
  split at h
  next rest hrest =>
    split at h
    next => cases h
    next =>
      obtain ⟨e, he, -⟩ := Option.map_eq_some_iff.mp h
      rw [hrest, List.forall_mem_cons]
      exact ⟨rfl, isNumeric_of_spanDigits (isNumeric_of_exponent? he)⟩
  next =>
    split at h
    next => cases h
    next =>
      obtain ⟨e, he, -⟩ := Option.map_eq_some_iff.mp h
      exact isNumeric_of_exponent? he

theorem head?_of_unsigned? (h : unsigned? s = some d) : ∃ c, s.head? = some c ∧ (isAsciiDigit c = true ∨ c = '.') := by
  cases s with
  | nil => simp [unsigned?, spanDigits] at h
  | cons c s =>
    refine ⟨c, rfl, ?_⟩
    by_cases hc : isAsciiDigit c = true
    . exact Or.inl hc
    . apply Or.inr
      apply Classical.byContradiction
      intro hpoint
      simp [unsigned?, spanDigits, hc, hpoint] at h

theorem exists_mark_magnitudeText (u : Nat) : ∃ c ∈ Layout.exact.magnitudeText u, c = '.' ∨ c = 'e' := by
  have hpositional : ∀ ds leading, '.' ∈ Layout.positionalText true ds leading := by
    intro ds leading
    unfold Layout.positionalText
    dsimp only
    split
    next => simp
    next => split <;> simp
  have hexponent : ∀ leading, 'e' ∈ Layout.exponentText leading := by
    intro leading
    unfold Layout.exponentText
    apply List.mem_cons_self
  have hscientific : ∀ ds leading, 'e' ∈ Layout.scientificText ds leading := by
    intro ds leading
    unfold Layout.scientificText
    split <;> simp [hexponent]
  unfold Layout.magnitudeText
  dsimp only [Layout.exact]
  generalize (if u = 0 then 0 else (shortest u).exponent + digitCount (shortest u).digits - 1 : Int) = leading
  split
  next => exact ⟨'.', hpositional _ _, Or.inl rfl⟩
  next => exact ⟨'e', hscientific _ _, Or.inr rfl⟩

end RowSweep.Decimal
