import RowSweep.Proofs.Diagnostic.Witness

/-!
This module contains what the plain form of evidence depends on: there is none exactly if something in the evidence is
no data or has a key that is not text, it does not tell in which order keys have been put into a mapping, and it is its
own plain form.
-/

namespace RowSweep

def EvidenceKey.text? : EvidenceKey → Option String
  | text name => some name
  | _ => none

namespace Evidence

/-!
### Parts of evidence
-/

def parts : Evidence → List Evidence
  | element e => [e]
  | list items | tuple items | array items => items
  | mapping entries => entries.map (·.2)
  | _ => []

inductive Occurs (part : Evidence) : Evidence → Prop where
  | self : Occurs part part
  | inside (hmem : item ∈ e.parts) (h : Occurs part item) : Occurs part e

inductive IsUnsuited : Evidence → Prop where
  | foreign : IsUnsuited .foreign
  | mapping (hmem : entry ∈ entries) (hkey : entry.1.text? = none) : IsUnsuited (.mapping entries)

def KeysDiffer : Evidence → Prop
  | mapping entries => (entries.filterMap (·.1.text?)).Nodup
  | _ => True

inductive IsKeyed : Evidence → Prop where
  | intro (differ : e.KeysDiffer) (each : ∀ item ∈ e.parts, IsKeyed item) : IsKeyed e

inductive Reorders : Evidence → Evidence → Prop where
  | refl (e : Evidence) : Reorders e e
  | trans (h : Reorders a b) (h' : Reorders b c) : Reorders a c
  | element (h : Reorders a b) : Reorders (.element a) (.element b)
  | list (before after : List Evidence) (h : Reorders a b) :
      Reorders (.list (before ++ a :: after)) (.list (before ++ b :: after))
  | tuple (before after : List Evidence) (h : Reorders a b) :
      Reorders (.tuple (before ++ a :: after)) (.tuple (before ++ b :: after))
  | array (before after : List Evidence) (h : Reorders a b) :
      Reorders (.array (before ++ a :: after)) (.array (before ++ b :: after))
  | value (before after : List (EvidenceKey × Evidence)) (key : EvidenceKey) (h : Reorders a b) :
      Reorders (.mapping (before ++ (key, a) :: after)) (.mapping (before ++ (key, b) :: after))
  | entries (h : entries.Perm entries') : Reorders (.mapping entries) (.mapping entries')

/-!
### The plain form of a collection
-/

theorem plainItems_eq_mapM (items : List Evidence) : plainItems items = items.mapM plain := by
  induction items with
  | nil => rfl
  | cons item rest ih => rw [plainItems, List.mapM_cons, ih]

def plainEntry (entry : EvidenceKey × Evidence) : Except WitnessFault (String × Except WitnessFault Document) :=
  match entry.1.text? with
  | some name => .ok (name, entry.2.plain)
  | none => .error .keyNotText

theorem plainEntries_eq_mapM (entries : List (EvidenceKey × Evidence)) :
    plainEntries entries = entries.mapM plainEntry := by
  induction entries with
  | nil => rfl
  | cons entry rest ih =>
    obtain ⟨key, item⟩ := entry
    rw [List.mapM_cons, ← ih]
    cases key with
    | text name => rfl
    | integer i => rfl
    | other => rfl

def texts (entries : List (EvidenceKey × Evidence)) : List (String × Evidence) :=
  entries.filterMap fun entry => entry.1.text?.map (·, entry.2)

theorem mem_texts {entries : List (EvidenceKey × Evidence)} {entry : String × Evidence} :
    entry ∈ texts entries ↔ (.text entry.1, entry.2) ∈ entries := by
  unfold texts
  rw [List.mem_filterMap]
  constructor
  . intro h
    obtain ⟨⟨key, item⟩, hmem, hentry⟩ := h
    cases key with
    | text name =>
      cases hentry
      exact hmem
    | integer i => cases hentry
    | other => cases hentry
  . exact fun hmem => ⟨_, hmem, rfl⟩

theorem nodup_keys_texts {entries : List (EvidenceKey × Evidence)} (h : (mapping entries).KeysDiffer) :
    ((texts entries).map (·.1)).Nodup := by
  suffices (texts entries).map (·.1) = entries.filterMap (·.1.text?) by rwa [this]
  unfold texts
  rw [List.map_filterMap]
  congr 1
  funext entry
  cases entry.1.text? with
  | none => rfl
  | some name => rfl

theorem plain_of_not_text {entries : List (EvidenceKey × Evidence)} {entry : EvidenceKey × Evidence}
    (hmem : entry ∈ entries) (hkey : entry.1.text? = none) : (mapping entries).plain = .error .keyNotText := by
  have hfault : ∀ (entry : EvidenceKey × Evidence) fault, plainEntry entry = .error fault → fault = .keyNotText := by
    intro entry fault h
    unfold plainEntry at h
    split at h
    next => cases h
    next => exact (Except.error.inj h).symm
  have hfails : ∃ fault, entries.mapM plainEntry = .error fault := by
    apply exists_mapM_eq_error_iff.mpr
    refine ⟨entry, hmem, .keyNotText, ?_⟩
    unfold plainEntry
    rw [hkey]
  obtain ⟨fault, h⟩ := hfails
  obtain ⟨_, _, _, _, _, hentry⟩ := mapM_eq_error_iff.mp h
  rw [hfault _ _ hentry] at h
  rw [plain, plainEntries_eq_mapM, h]
  rfl

theorem plain_mapping {entries : List (EvidenceKey × Evidence)} {found : List (String × Except WitnessFault Document)}
    (h : entries.mapM plainEntry = .ok found) : (mapping entries).plain =
      ((Document.sortEntries found).mapM fun entry : String × Except WitnessFault Document =>
        entry.2.map (entry.1, ·)).map .mapping := by
  have hmap (x : Except WitnessFault (List (String × Document))) :
      (x >>= fun entries => pure (Document.mapping entries)) = x.map .mapping := by
    cases x with
    | ok entries => rfl
    | error fault => rfl
  rw [plain, plainEntries_eq_mapM, h]
  exact hmap _

def plainText (entry : String × Evidence) : Except WitnessFault (String × Document) :=
  entry.2.plain.map (entry.1, ·)

theorem plain_of_text {entries : List (EvidenceKey × Evidence)} (h : ∀ entry ∈ entries, entry.1.text? ≠ none) :
    (mapping entries).plain = ((Document.sortEntries (texts entries)).mapM plainText).map .mapping := by
  have hfound : entries.mapM plainEntry = .ok ((texts entries).map fun entry => (entry.1, entry.2.plain)) := by
    induction entries with
    | nil => rfl
    | cons entry rest ih =>
      rw [List.forall_mem_cons] at h
      obtain ⟨name, hname⟩ := Option.ne_none_iff_exists'.mp h.left
      refine mapM_cons_eq_ok_iff.mpr ⟨(name, entry.2.plain), _, ?_, ih h.right, ?_⟩
      . unfold plainEntry
        rw [hname]
      . simp [texts, hname]
  rw [plain_mapping hfound, Document.sortEntries_map, List.mapM_map]
  rfl

/-!
### When there is no plain form
-/

variable {e : Evidence}

theorem fails_of_items (items : List Evidence) : (∃ fault, Document.sequence <$> plainItems items = .error fault) ↔
    ∃ item ∈ items, ∃ fault, item.plain = .error fault := by
  rw [← exists_mapM_eq_error_iff, plainItems_eq_mapM]
  apply exists_congr
  intro fault
  exact map_eq_error_iff

theorem fails_of_text {entries : List (EvidenceKey × Evidence)} (he : (mapping entries).KeysDiffer)
    (hkeys : ∀ entry ∈ entries, entry.1.text? ≠ none) : (∃ fault, (mapping entries).plain = .error fault) ↔
      ∃ item ∈ (mapping entries).parts, ∃ fault, item.plain = .error fault := by
  rw [plain_of_text hkeys]
  simp only [map_eq_error_iff, exists_mapM_eq_error_iff, Document.mem_sortEntries_iff (nodup_keys_texts he), mem_texts,
    plainText]
  constructor
  . intro h
    obtain ⟨entry, hmem, hfault⟩ := h
    exact ⟨entry.2, List.mem_map_of_mem hmem, hfault⟩
  . intro h
    obtain ⟨item, hmem, hfault⟩ := h
    obtain ⟨⟨key, item⟩, hentry, rfl⟩ := List.mem_map.mp hmem
    cases key with
    | text name => exact ⟨(name, item), hentry, hfault⟩
    | integer i => exact absurd rfl (hkeys _ hentry)
    | other => exact absurd rfl (hkeys _ hentry)

theorem KeysDiffer.fails_iff (he : e.KeysDiffer) : (∃ fault, e.plain = .error fault) ↔
    e.IsUnsuited ∨ ∃ item ∈ e.parts, ∃ fault, item.plain = .error fault := by
  -- Apart from what is unsuited itself, evidence fails with one of its parts.
  cases e with
  | foreign => exact iff_of_true ⟨.foreign, rfl⟩ (Or.inl .foreign)
  | element item => simp [plain, parts, show ¬ (element item).IsUnsuited from nofun]
  | list items => exact (fails_of_items items).trans (or_iff_right nofun).symm
  | tuple items => exact (fails_of_items items).trans (or_iff_right nofun).symm
  | array items => exact (fails_of_items items).trans (or_iff_right nofun).symm
  | mapping entries =>
    by_cases hkeys : ∀ entry ∈ entries, entry.1.text? ≠ none
    . have hsuited : ¬ (mapping entries).IsUnsuited := by
        intro h
        cases h with
        | mapping hmem hkey => exact hkeys _ hmem hkey
      rw [fails_of_text he hkeys, or_iff_right hsuited]
    . simp only [not_forall, not_not] at hkeys
      obtain ⟨entry, hmem, hkey⟩ := hkeys
      exact iff_of_true ⟨_, plain_of_not_text hmem hkey⟩ (Or.inl (.mapping hmem hkey))
  | null | boolean | integer | real | text =>
    apply iff_of_false nofun
    rintro (h | ⟨_, h, _⟩) <;> cases h

theorem exists_occurs_iff {P : Evidence → Prop} :
    (∃ part : Evidence, part.Occurs e ∧ P part) ↔
      P e ∨ ∃ item ∈ e.parts, ∃ part : Evidence, part.Occurs item ∧ P part := by
  constructor
  . intro h
    obtain ⟨part, hoccurs, hpart⟩ := h
    cases hoccurs with
    | self => exact Or.inl hpart
    | inside hmem hoccurs => exact Or.inr ⟨_, hmem, part, hoccurs, hpart⟩
  . intro h
    cases h with
    | inl he => exact ⟨e, .self, he⟩
    | inr hinside =>
      obtain ⟨item, hmem, part, hoccurs, hpart⟩ := hinside
      exact ⟨part, .inside hmem hoccurs, hpart⟩

theorem IsKeyed.fails_iff (he : e.IsKeyed) :
    (∃ fault, e.plain = .error fault) ↔ ∃ part : Evidence, part.Occurs e ∧ part.IsUnsuited := by
  induction he with
  | intro differ each ih =>
    rw [differ.fails_iff, exists_occurs_iff]
    apply or_congr_right
    apply exists_congr
    intro item
    apply and_congr_right
    exact ih item

/-!
### The order of keys
-/

theorem forall_mem_replaced {P : α → Prop} {before after : List α} {a b : α} (h : ∀ x ∈ before ++ a :: after, P x)
    (hb : P b) : ∀ x ∈ before ++ b :: after, P x := by
  rw [List.forall_mem_append, List.forall_mem_cons] at h ⊢
  exact ⟨h.left, hb, h.right.right⟩

theorem mem_replaced {before after : List α} {a : α} : a ∈ before ++ a :: after :=
  List.mem_append_right _ List.mem_cons_self

theorem Reorders.isKeyed {a b : Evidence} (h : Reorders a b) (ha : a.IsKeyed) : b.IsKeyed := by
  induction h with
  | refl => exact ha
  | trans _ _ ih ih' => exact ih' (ih ha)
  | element _ ih =>
    obtain ⟨-, each⟩ := ha
    exact .intro trivial (List.forall_mem_singleton.mpr (ih (each _ List.mem_cons_self)))
  | list before after _ ih =>
    obtain ⟨-, each⟩ := ha
    exact .intro trivial (forall_mem_replaced each (ih (each _ mem_replaced)))
  | tuple before after _ ih =>
    obtain ⟨-, each⟩ := ha
    exact .intro trivial (forall_mem_replaced each (ih (each _ mem_replaced)))
  | array before after _ ih =>
    obtain ⟨-, each⟩ := ha
    exact .intro trivial (forall_mem_replaced each (ih (each _ mem_replaced)))
  | value before after key _ ih =>
    obtain ⟨differ, each⟩ := ha
    simp only [parts, KeysDiffer, List.map_append, List.map_cons, List.filterMap_append, List.filterMap_cons]
      at differ each
    refine .intro ?_ ?_
    . simpa only [KeysDiffer, List.filterMap_append, List.filterMap_cons] using differ
    . simp only [parts, List.map_append, List.map_cons]
      exact forall_mem_replaced each (ih (each _ mem_replaced))
  | entries hperm =>
    obtain ⟨differ, each⟩ := ha
    refine .intro ((hperm.filterMap _).nodup_iff.mp differ) ?_
    intro item hmem
    exact each item ((hperm.map _).mem_iff.mpr hmem)

theorem Reorders.plain_eq {a b : Evidence} (h : Reorders a b) (ha : a.IsKeyed) : a.plain = b.plain := by
  -- Neither the plain form nor the fault depends on the order of the keys.
  induction h with
  | refl => rfl
  | trans h _ ih ih' => exact (ih ha).trans (ih' (h.isKeyed ha))
  | element _ ih =>
    obtain ⟨-, each⟩ := ha
    rw [plain, plain, ih (each _ List.mem_cons_self)]
  | list before after _ ih =>
    obtain ⟨-, each⟩ := ha
    simp only [plain, plainItems_eq_mapM, List.mapM_append, List.mapM_cons, ih (each _ mem_replaced)]
  | tuple before after _ ih =>
    obtain ⟨-, each⟩ := ha
    simp only [plain, plainItems_eq_mapM, List.mapM_append, List.mapM_cons, ih (each _ mem_replaced)]
  | array before after _ ih =>
    obtain ⟨-, each⟩ := ha
    simp only [plain, plainItems_eq_mapM, List.mapM_append, List.mapM_cons, ih (each _ mem_replaced)]
  | value before after key _ ih =>
    obtain ⟨-, each⟩ := ha
    have hitem := ih (each _ (List.mem_map_of_mem mem_replaced))
    simp only [plain, plainEntries_eq_mapM, List.mapM_append, List.mapM_cons, plainEntry, hitem]
  | entries hperm =>
    rename_i entries entries'
    obtain ⟨differ, -⟩ := ha
    -- A key that is not text is found in either order.
    by_cases hkeys : ∀ entry ∈ entries, entry.1.text? ≠ none
    . have hkeys' : ∀ entry ∈ entries', entry.1.text? ≠ none := fun entry hmem => hkeys entry (hperm.mem_iff.mpr hmem)
      rw [plain_of_text hkeys, plain_of_text hkeys',
        Document.sortEntries_eq_of_perm (nodup_keys_texts differ) (hperm.filterMap _)]
      rfl
    . simp only [not_forall, not_not] at hkeys
      obtain ⟨entry, hmem, hkey⟩ := hkeys
      rw [plain_of_not_text hmem hkey, plain_of_not_text (hperm.mem_iff.mp hmem) hkey]

/-!
### Plain forms of plain forms
-/

theorem ofItems_eq_map (items : List Document) : ofItems items = items.map ofDocument := by
  induction items with
  | nil => rfl
  | cons item rest ih => rw [ofItems, List.map_cons, ih]

theorem ofEntries_eq_map (entries : List (String × Document)) :
    ofEntries entries = entries.map fun entry => (.text entry.1, ofDocument entry.2) := by
  induction entries with
  | nil => rfl
  | cons entry rest ih => rw [ofEntries, List.map_cons, ih]

theorem plain_ofDocument {d : Document} (h : d.IsPlain) : (ofDocument d).plain = .ok d := by
  induction h with
  | null => rfl
  | boolean => rfl
  | integer => rfl
  | real => rfl
  | text => rfl
  | @sequence items _ ih =>
    have hitems : plainItems (ofItems items) = .ok items := by
      rw [ofItems_eq_map, plainItems_eq_mapM, List.mapM_map, mapM_eq_ok_iff, List.forall₂_same]
      exact ih
    rw [ofDocument, plain, hitems]
    rfl
  | @mapping entries ascend _ ih =>
    have htexts : texts (ofEntries entries) = entries.map fun entry => (entry.1, ofDocument entry.2) := by
      rw [ofEntries_eq_map, texts, List.filterMap_map]
      exact congrFun List.filterMap_eq_map entries
    have hkeys : ∀ entry ∈ ofEntries entries, entry.1.text? ≠ none := by
      rw [ofEntries_eq_map, List.forall_mem_map]
      exact fun _ _ => Option.some_ne_none _
    have hsorted : ((Document.sortEntries (texts (ofEntries entries))).mapM plainText) = .ok entries := by
      rw [htexts, Document.sortEntries_map, Document.sortEntries_of_keysAscend ascend, List.mapM_map, mapM_eq_ok_iff,
        List.forall₂_same]
      intro entry hmem
      exact map_eq_ok_iff.mpr ⟨entry.2, ih entry hmem, rfl⟩
    rw [ofDocument, plain_of_text hkeys, hsorted]
    rfl

theorem witness_ofDocument {d : Document} (h : e.plain = .ok d) : (ofDocument d).witness = e.witness := by
  unfold witness
  rw [plain_ofDocument (isPlain_of_plain e h), h]

end Evidence

theorem plain_of_evidence (e : Evidence) (he : e.IsKeyed) :
    ((∃ fault, e.plain = .error fault) ↔ ∃ part : Evidence, part.Occurs e ∧ part.IsUnsuited) ∧
    (∀ e', e.Reorders e' → e'.plain = e.plain) ∧
    ∀ d, e.plain = .ok d → d.IsPlain ∧ (Evidence.ofDocument d).plain = .ok d ∧
      ∃ w, e.witness = .ok w ∧ (Evidence.ofDocument d).witness = .ok w ∧
        ∀ d' ∈ w, witnessText w = Json.write d' := by
  refine ⟨he.fails_iff, fun e' h => (h.plain_eq he).symm, ?_⟩
  intro d hd
  have hplain := Evidence.isPlain_of_plain e hd
  obtain ⟨w, hw⟩ : ∃ w, e.witness = .ok w := by
    unfold Evidence.witness
    rw [hd]
    exact ⟨_, rfl⟩
  refine ⟨hplain, Evidence.plain_ofDocument hplain, w, hw, (Evidence.witness_ofDocument hd).trans hw, ?_⟩
  intro d' hd'
  have hplain' := Evidence.isPlain_of_witness hw d' hd'
  cases hd'
  rw [witnessText, hplain'.sortKeys_eq]

def unsortedEvidence (inner : List (EvidenceKey × Evidence)) : Evidence :=
  .mapping [(.text "z", .tuple [.integer 3, .element (.integer 1)]),
    (.text "a", .array [.element (.real .one), .mapping inner])]

theorem plain_of_unsortedEvidence :
    let inner : List (EvidenceKey × Evidence) := [(.text "y", .null), (.text "x", .boolean true)]
    let d : Document := .mapping [("a", .sequence [.real .one, .mapping [("x", .boolean true), ("y", .null)]]),
      ("z", .sequence [.integer 3, .integer 1])]
    (unsortedEvidence inner).IsKeyed ∧ (unsortedEvidence inner).plain = .ok d ∧
      (unsortedEvidence inner.reverse).plain = .ok d ∧ d.IsPlain ∧ (Evidence.ofDocument d).plain = .ok d ∧
      (unsortedEvidence inner).witness = .ok (some d) ∧ witnessText (some d) = Json.write d := by
  intro inner d
  have hkeyed : (unsortedEvidence inner).IsKeyed := by
    have hnull : Evidence.null.IsKeyed := .intro trivial nofun
    have hboolean : (Evidence.boolean true).IsKeyed := .intro trivial nofun
    have hinteger (i : Int) : (Evidence.integer i).IsKeyed := .intro trivial nofun
    have hreal (x : Binary64) : (Evidence.real x).IsKeyed := .intro trivial nofun
    have helement {e : Evidence} (he : e.IsKeyed) : (Evidence.element e).IsKeyed :=
      .intro trivial (List.forall_mem_singleton.mpr he)
    have hinner : (Evidence.mapping inner).IsKeyed := by
      refine .intro ?_ (by simp [Evidence.parts, inner, hnull, hboolean])
      show List.Nodup _
      decide
    have htuple : (Evidence.tuple [.integer 3, .element (.integer 1)]).IsKeyed :=
      .intro trivial (by simp [Evidence.parts, hinteger, helement])
    have harray : (Evidence.array [.element (.real .one), .mapping inner]).IsKeyed :=
      .intro trivial (by simp [Evidence.parts, hreal, helement, hinner])
    refine .intro ?_ (by simp [unsortedEvidence, Evidence.parts, htuple, harray])
    show List.Nodup _
    decide
  have hd : (unsortedEvidence inner).plain = .ok d := rfl
  have hreorders : (unsortedEvidence inner).Reorders (unsortedEvidence inner.reverse) :=
    .value [_] [] _ (.array [_] [] (.entries (List.reverse_perm inner).symm))
  obtain ⟨-, horder, hplain⟩ := plain_of_evidence (unsortedEvidence inner) hkeyed
  obtain ⟨hsorted, hagain, w, hw, -, htext⟩ := hplain d hd
  obtain rfl : some d = w := Except.ok.inj hw
  exact ⟨hkeyed, hd, (horder _ hreorders).trans hd, hsorted, hagain, hw, htext d rfl⟩

end RowSweep
