import RowSweep.Diagnostic.Witness
import RowSweep.Proofs.Except
import RowSweep.Proofs.Json.Writer

/-!
This module contains what is stored as a witness: plain data with its keys in order. Two witnesses of one text are the
same.
-/

namespace RowSweep

namespace Evidence

theorem eq_map_of_mapM {found : List (String × Except WitnessFault Document)} {entries : List (String × Document)}
    (h : (found.mapM fun (key, item) => item.map (key, ·)) = .ok entries) :
    found = entries.map fun entry => (entry.1, .ok entry.2) := by
  induction found generalizing entries with
  | nil =>
    cases h
    rfl
  | cons first rest ih =>
    obtain ⟨entry, others, hfirst, hrest, rfl⟩ := mapM_cons_eq_ok_iff.mp h
    obtain ⟨document, hdocument, rfl⟩ := map_eq_ok_iff.mp hfirst
    rw [List.map_cons, ← ih hrest, ← hdocument]

theorem isPlain_sequence {document : Document} (h : (.sequence <$> plainItems items) = .ok document)
    (hplain : ∀ documents, plainItems items = .ok documents → ∀ item ∈ documents, item.IsPlain) : document.IsPlain := by
  obtain ⟨documents, hitems, rfl⟩ := map_eq_ok_iff.mp h
  exact .sequence (hplain documents hitems)

theorem isPlain_mapping {found : List (String × Except WitnessFault Document)} {entries : List (String × Document)}
    (h : ((Document.sortEntries found).mapM fun (key, item) => item.map (key, ·)) = .ok entries)
    (hplain : ∀ entry ∈ found, ∀ document, entry.2 = .ok document → document.IsPlain) :
    (Document.mapping entries).IsPlain := by
  have hsorted := eq_map_of_mapM h
  apply Document.IsPlain.mapping
  . have hascend := Document.keysAscend_sortEntries found
    rw [hsorted] at hascend
    unfold Document.KeysAscend at hascend
    rwa [List.pairwise_map] at hascend
  . intro entry hmem
    have hentry : (entry.1, .ok entry.2) ∈ Document.sortEntries found := by
      rw [hsorted]
      exact List.mem_map_of_mem hmem
    exact hplain _ (Document.mem_sortEntries hentry) _ rfl

mutual

theorem isPlain_of_plain (e : Evidence) {document : Document} (h : e.plain = .ok document) : document.IsPlain := by
  cases e with
  | null =>
    cases h
    exact .null
  | boolean b =>
    cases h
    exact .boolean b
  | integer i =>
    cases h
    exact .integer i
  | real x =>
    cases h
    exact .real x
  | text s =>
    cases h
    exact .text s
  | element e => exact isPlain_of_plain e (by rwa [plain] at h)
  | list items => exact isPlain_sequence h fun _ => isPlain_of_plainItems items
  | tuple items => exact isPlain_sequence h fun _ => isPlain_of_plainItems items
  | array items => exact isPlain_sequence h fun _ => isPlain_of_plainItems items
  | mapping entries =>
    rw [plain] at h
    simp only [bind_eq_ok_iff] at h
    obtain ⟨found, hfound, sorted, hsorted, h⟩ := h
    cases h
    exact isPlain_mapping hsorted (isPlain_of_plainEntries entries hfound)
  | foreign => cases h

theorem isPlain_of_plainItems (items : List Evidence) {documents : List Document}
    (h : plainItems items = .ok documents) : ∀ document ∈ documents, document.IsPlain := by
  cases items with
  | nil =>
    cases h
    exact nofun
  | cons item rest =>
    rw [plainItems] at h
    simp only [bind_eq_ok_iff] at h
    obtain ⟨first, hfirst, others, hothers, h⟩ := h
    cases h
    rw [List.forall_mem_cons]
    exact ⟨isPlain_of_plain item hfirst, isPlain_of_plainItems rest hothers⟩

theorem isPlain_of_plainEntries (entries : List (EvidenceKey × Evidence))
    {found : List (String × Except WitnessFault Document)} (h : plainEntries entries = .ok found) :
    ∀ entry ∈ found, ∀ document, entry.2 = .ok document → document.IsPlain := by
  cases entries with
  | nil =>
    cases h
    exact nofun
  | cons entry rest =>
    obtain ⟨key, item⟩ := entry
    cases key with
    | text key =>
      rw [plainEntries] at h
      simp only [bind_eq_ok_iff] at h
      obtain ⟨others, hothers, h⟩ := h
      cases h
      rw [List.forall_mem_cons]
      exact ⟨fun _ hitem => isPlain_of_plain item hitem, isPlain_of_plainEntries rest hothers⟩
    | integer i => cases h
    | other => cases h

end

theorem isPlain_of_witness {e : Evidence} {witness : Option Document} (h : e.witness = .ok witness) :
    ∀ document ∈ witness, document.IsPlain := by
  obtain ⟨stored, hstored, rfl⟩ := map_eq_ok_iff.mp h
  have hplain := isPlain_of_plain e hstored
  intro document hmem
  split at hmem
  next => cases hmem
  next =>
    cases hmem
    exact hplain

end Evidence

theorem witnessText_ne_empty (h : Document.IsPlain d) : witnessText (some d) ≠ "" := by
  intro hempty
  rw [witnessText, h.sortKeys_eq] at hempty
  exact Json.chars_ne_nil d (String.ofList_injective hempty)

theorem witnessText_injective {w w' : Option Document} (hw : ∀ d ∈ w, d.IsPlain) (hw' : ∀ d ∈ w', d.IsPlain)
    (h : witnessText w = witnessText w') : w = w' := by
  cases w with
  | none =>
    cases w' with
    | none => rfl
    | some d' => exact absurd h.symm (witnessText_ne_empty (hw' d' rfl))
  | some d =>
    cases w' with
    | none => exact absurd h (witnessText_ne_empty (hw d rfl))
    | some d' =>
      have hd := hw d rfl
      have hd' := hw' d' rfl
      rw [witnessText, witnessText, hd.sortKeys_eq, hd'.sortKeys_eq] at h
      rw [Json.write_injective hd hd' h]

end RowSweep
