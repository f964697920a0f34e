import RowSweep.Proofs.Json.Writer

/-!
This module contains strict data, in which all numbers are finite. Where all strings are simple names, the text of a
document tells whether it is strict.
-/

namespace RowSweep

namespace Document

inductive Every (number : Binary64 → Prop) (string : String → Prop) : Document → Prop where
  | null : Every number string .null
  | boolean (b : Bool) : Every number string (.boolean b)
  | integer (i : Int) : Every number string (.integer i)
  | real (x : Binary64) (hx : number x) : Every number string (.real x)
  | text (s : String) (hs : string s) : Every number string (.text s)
  | sequence {items : List Document} (each : ∀ item ∈ items, Every number string item) :
    Every number string (.sequence items)
  | mapping {entries : List (String × Document)} (keys : ∀ entry ∈ entries, string entry.1)
      (each : ∀ entry ∈ entries, Every number string entry.2) : Every number string (.mapping entries)

def IsStrict (d : Document) : Prop :=
  d.Every (·.isFinite = true) fun _ => True

variable {d : Document} {p p' : Binary64 → Prop} {q q' : String → Prop}

theorem Every.isStrict (h : d.Every (·.isFinite = true) q) : d.IsStrict := by
  induction h with
  | null => exact .null
  | boolean b => exact .boolean b
  | integer i => exact .integer i
  | real x hx => exact .real x hx
  | text s => exact .text s trivial
  | sequence each ih => exact .sequence ih
  | mapping keys each ih => exact .mapping (fun _ _ => trivial) ih

theorem isStrict_single_iff {key : String} {x : Binary64} :
    (mapping [(key, real x)]).IsStrict ↔ x.isFinite = true := by
  constructor
  . intro h
    cases h with
    | mapping keys each =>
      cases each _ List.mem_cons_self with
      | real _ hx => exact hx
  . intro hx
    apply Every.mapping
    . simp
    . simpa using Every.real x hx

theorem Every.both (h : d.Every p q') (h' : d.Every p' q) : d.Every p q := by
  induction h with
  | null => exact .null
  | boolean b => exact .boolean b
  | integer i => exact .integer i
  | real x hx => exact .real x hx
  | text s =>
    cases h' with
    | text _ hs' => exact .text s hs'
  | sequence each ih =>
    cases h' with
    | sequence each' => exact .sequence fun item hmem => ih item hmem (each' item hmem)
  | mapping keys each ih =>
    cases h' with
    | mapping keys' each' => exact .mapping keys' fun entry hmem => ih entry hmem (each' entry hmem)

end Document

namespace Json

open Decimal

def isWordInitial (c : Char) : Bool :=
  c == 'N' || c == 'I'

def HasWord (s : List Char) : Prop :=
  "NaN".toList <:+: s ∨ "Infinity".toList <:+: s

def isNameChar (c : Char) : Bool :=
  c.isLower || c == '_'

def IsName (s : String) : Prop :=
  s.toList.all isNameChar = true

instance (s : String) : Decidable (IsName s) :=
  inferInstanceAs (Decidable (_ = true))

theorem HasWord.mono (hs : HasWord s) (h : s <:+: s') : HasWord s' := by
  cases hs with
  | inl hs => exact Or.inl (hs.trans h)
  | inr hs => exact Or.inr (hs.trans h)

theorem HasWord.exists_isWordInitial (hs : HasWord s) : ∃ c ∈ s, isWordInitial c = true := by
  cases hs with
  | inl hs => exact ⟨'N', hs.subset (by decide), by decide⟩
  | inr hs => exact ⟨'I', hs.subset (by decide), by decide⟩

theorem hasWord_realText {x : Binary64} (hx : x.isFinite = false) : HasWord (realText x) := by
  cases x with
  | nan => exact Or.inl (List.infix_refl _)
  | infinite negative =>
    cases negative with
    | false => exact Or.inr (List.infix_refl _)
    | true => exact Or.inr (List.infix_cons (List.infix_refl _))
  | finite => cases hx

/-!
### Words of strict data
-/

theorem isWordInitial_of_kind {kind : Char → Bool} (hN : kind 'N' = false) (hI : kind 'I' = false) {c : Char}
    (hc : kind c = true) : isWordInitial c = false := by
  rw [← Bool.not_eq_true]
  intro hinitial
  rw [isWordInitial, Bool.or_eq_true, beq_iff_eq, beq_iff_eq] at hinitial
  cases hinitial with
  | inl heq =>
    rw [heq, hN] at hc
    cases hc
  | inr heq =>
    rw [heq, hI] at hc
    cases hc

theorem isWordInitial_of_isNameChar {c : Char} (hc : isNameChar c = true) : isWordInitial c = false :=
  isWordInitial_of_kind (by decide) (by decide) hc

theorem isWordInitial_of_isNumeric {c : Char} (hc : isNumeric c = true) : isWordInitial c = false :=
  isWordInitial_of_kind (by decide) (by decide) hc

theorem escape_of_isNameChar {c : Char} (hc : isNameChar c = true) : escape c = [c] := by
  unfold escape
  split
  case h_8 =>
    apply if_pos
    rw [isNameChar, Bool.or_eq_true, beq_iff_eq] at hc
    cases hc with
    | inl hlower =>
      simp only [Char.isLower, Bool.and_eq_true, decide_eq_true_eq] at hlower
      exact ⟨Char.le_trans (by decide) hlower.left, Char.le_trans hlower.right (by decide)⟩
    | inr heq =>
      rw [heq]
      decide
  all_goals simp [isNameChar] at hc

theorem isWordInitial_of_mem_quote {s : String} (h : IsName s) : ∀ c ∈ quote s, isWordInitial c = false := by
  have hbody : ∀ c ∈ s.toList.flatMap escape, isWordInitial c = false := by
    intro c hc
    obtain ⟨c', hc', hmem⟩ := List.mem_flatMap.mp hc
    have hname := List.all_eq_true.mp h c' hc'
    rw [escape_of_isNameChar hname, List.mem_singleton] at hmem
    rw [hmem]
    exact isWordInitial_of_isNameChar hname
  rw [quote, List.cons_append, List.forall_mem_cons, List.forall_mem_append]
  exact ⟨rfl, hbody, by simp [isWordInitial]⟩

theorem isWordInitial_of_mem_itemChars {items : List Document}
    (h : ∀ item ∈ items, ∀ c ∈ chars item, isWordInitial c = false) :
    ∀ c ∈ itemChars items, isWordInitial c = false := by
  induction items with
  | nil => simp [itemChars, isWordInitial]
  | cons item rest ih =>
    rw [List.forall_mem_cons] at h
    rw [itemChars_cons, List.forall_mem_append]
    refine ⟨h.left, ?_⟩
    unfold itemTail
    split
    next => simp [isWordInitial]
    next =>
      rw [List.forall_mem_cons]
      exact ⟨rfl, ih h.right⟩

theorem isWordInitial_of_mem_entryChars {entries : List (String × Document)}
    (hkeys : ∀ entry ∈ entries, IsName entry.1)
    (h : ∀ entry ∈ entries, ∀ c ∈ chars entry.2, isWordInitial c = false) :
    ∀ c ∈ entryChars entries, isWordInitial c = false := by
  induction entries with
  | nil => simp [entryChars, isWordInitial]
  | cons entry rest ih =>
    rw [List.forall_mem_cons] at h hkeys
    rw [entryChars_cons, List.forall_mem_append, List.forall_mem_cons, List.forall_mem_append]
    refine ⟨isWordInitial_of_mem_quote hkeys.left, rfl, h.left, ?_⟩
    unfold entryTail
    split
    next => simp [isWordInitial]
    next =>
      rw [List.forall_mem_cons]
      exact ⟨rfl, ih hkeys.right h.right⟩

theorem isWordInitial_of_mem_chars (h : d.Every (·.isFinite = true) IsName) :
    ∀ c ∈ chars d, isWordInitial c = false := by
  -- All letters of these kinds come from a number that is not finite.
  induction h with
  | null => simp [chars, isWordInitial]
  | boolean b => cases b <;> simp [chars, isWordInitial]
  | integer i =>
    intro c hc
    rw [chars] at hc
    exact isWordInitial_of_isNumeric (isNumeric_of_mem_integerText i c hc)
  | real x hx =>
    obtain ⟨negative, u, hu, rfl⟩ := Binary64.exists_of_isFinite hx
    intro c hc
    rw [chars] at hc
    exact isWordInitial_of_isNumeric (isNumeric_realText negative u hu c hc)
  | text s hs =>
    rw [chars]
    exact isWordInitial_of_mem_quote hs
  | sequence each ih =>
    rw [chars, List.forall_mem_cons]
    exact ⟨rfl, isWordInitial_of_mem_itemChars ih⟩
  | mapping keys each ih =>
    rw [chars, List.forall_mem_cons]
    exact ⟨rfl, isWordInitial_of_mem_entryChars keys ih⟩

/-!
### Words of other data
-/

theorem infix_itemChars {items : List Document} (h : item ∈ items) : chars item <:+: itemChars items := by
  induction items with
  | nil => cases h
  | cons first rest ih =>
    rw [itemChars_cons]
    cases List.mem_cons.mp h with
    | inl heq =>
      rw [heq]
      apply List.IsPrefix.isInfix
      apply List.prefix_append
    | inr hmem =>
      apply (ih hmem).trans
      apply List.IsSuffix.isInfix
      apply List.IsSuffix.trans _ (List.suffix_append _ _)
      unfold itemTail
      split
      next => cases hmem
      next => apply List.suffix_cons

theorem infix_entryChars {entries : List (String × Document)} (h : entry ∈ entries) :
    chars entry.2 <:+: entryChars entries := by
  induction entries with
  | nil => cases h
  | cons first rest ih =>
    rw [entryChars_cons]
    cases List.mem_cons.mp h with
    | inl heq =>
      rw [heq]
      exact ⟨quote first.1 ++ [':'], entryTail rest, by simp⟩
    | inr hmem =>
      apply (ih hmem).trans
      apply List.IsSuffix.isInfix
      apply List.IsSuffix.trans _ (List.suffix_append _ _)
      apply List.IsSuffix.trans _ (List.suffix_cons _ _)
      apply List.IsSuffix.trans _ (List.suffix_append _ _)
      unfold entryTail
      split
      next => cases hmem
      next => apply List.suffix_cons

theorem isStrict_of_not_hasWord (h : d.Every p q) (hword : ¬ HasWord (chars d)) : d.IsStrict := by
  induction h with
  | null => exact .null
  | boolean b => exact .boolean b
  | integer i => exact .integer i
  | real x =>
    apply Document.Every.real
    rw [chars] at hword
    by_contra hfinite
    exact hword (hasWord_realText (by simpa using hfinite))
  | text s => exact .text s trivial
  | sequence each ih =>
    apply Document.Every.sequence
    intro item hmem
    apply ih item hmem
    intro hitem
    apply hword
    rw [chars]
    exact hitem.mono ((infix_itemChars hmem).trans (List.suffix_cons _ _).isInfix)
  | mapping keys each ih =>
    apply Document.Every.mapping (fun _ _ => trivial)
    intro entry hmem
    apply ih entry hmem
    intro hentry
    apply hword
    rw [chars]
    exact hentry.mono ((infix_entryChars hmem).trans (List.suffix_cons _ _).isInfix)

theorem isStrict_iff_not_hasWord (h : d.Every p IsName) : d.IsStrict ↔ ¬ HasWord (chars d) := by
  constructor
  . intro hstrict hword
    obtain ⟨c, hc, hinitial⟩ := hword.exists_isWordInitial
    rw [isWordInitial_of_mem_chars (hstrict.both h) c hc] at hinitial
    cases hinitial
  . exact isStrict_of_not_hasWord h

end Json

end RowSweep
