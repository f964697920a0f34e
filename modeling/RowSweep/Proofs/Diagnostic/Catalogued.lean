import RowSweep.Proofs.Diagnostic.Validity

/-!
This module contains findings whose code is in the catalog. Each of them makes a diagnostic, which takes from the
catalog what the finding leaves out.
-/

namespace RowSweep

namespace Document

theorem exists_mapM_sortEntries {found : List (String × Except ε Document)}
    (h : ∀ entry ∈ found, ∃ document, entry.2 = .ok document) :
    ∃ entries, ((sortEntries found).mapM fun (key, item) => item.map (key, ·)) = .ok entries := by
  have hsorted : ∀ entry ∈ sortEntries found, ∃ document, entry.2 = .ok document :=
    fun entry hmem => h entry (mem_sortEntries hmem)
  generalize sortEntries found = sorted at hsorted
  induction sorted with
  | nil => exact ⟨[], rfl⟩
  | cons entry rest ih =>
    rw [List.forall_mem_cons] at hsorted
    cases hsorted.left with
    | intro document hdocument =>
      cases ih hsorted.right with
      | intro entries hentries =>
        refine ⟨(entry.1, document) :: entries, mapM_cons_eq_ok_iff.mpr ⟨_, _, ?_, hentries, rfl⟩⟩
        exact map_eq_ok_iff.mpr ⟨document, hdocument, rfl⟩

end Document

namespace Evidence

theorem plainEntries_map (entries : List (String × Evidence)) :
    plainEntries (entries.map fun (key, e) => (.text key, e)) = .ok (entries.map fun (key, e) => (key, e.plain)) := by
  induction entries with
  | nil => rfl
  | cons entry rest ih =>
    rw [List.map_cons, plainEntries, ih]
    rfl

theorem exists_witness_mapping (entries : List (String × Evidence))
    (h : ∀ entry ∈ entries, ∃ document, entry.2.plain = .ok document) :
    ∃ witness, (mapping (entries.map fun (key, e) => (.text key, e))).witness = .ok witness := by
  have hfound : ∀ entry ∈ entries.map fun (key, e) => (key, e.plain), ∃ document, entry.2 = .ok document := by
    rw [List.forall_mem_map]
    exact h
  cases Document.exists_mapM_sortEntries hfound with
  | intro sorted hsorted =>
    refine ⟨some (.mapping sorted), map_eq_ok_iff.mpr ⟨.mapping sorted, ?_, rfl⟩⟩
    rw [plain, plainEntries_map]
    simp only [bind_eq_ok_iff]
    exact ⟨_, rfl, _, hsorted, rfl⟩

theorem plainItems_integers (ks : List Nat) :
    plainItems (ks.map fun (k : Nat) => integer k) = .ok (ks.map fun (k : Nat) => .integer k) := by
  induction ks with
  | nil => rfl
  | cons k rest ih =>
    rw [List.map_cons, plainItems, ih]
    rfl

theorem exists_plain_integers (ks : List Nat) :
    ∃ document, (list (ks.map fun (k : Nat) => integer k)).plain = .ok document := by
  rw [plain, plainItems_integers]
  exact ⟨_, rfl⟩

theorem exists_plain_real (x : Binary64) : ∃ document, (real x).plain = .ok document :=
  ⟨.real x, rfl⟩

theorem exists_plain_ite (p : Prop) [Decidable p] {e e' : Evidence} (h : ∃ document, e.plain = .ok document)
    (h' : ∃ document, e'.plain = .ok document) : ∃ document, (if p then e else e').plain = .ok document := by
  split
  next => exact h
  next => exact h'

theorem exists_plain_null : ∃ document, null.plain = .ok document :=
  ⟨.null, rfl⟩

theorem exists_witness_single (key : String) {e : Evidence} (h : ∃ document, e.plain = .ok document) :
    ∃ witness, (mapping [(.text key, e)]).witness = .ok witness := by
  apply exists_witness_mapping [(key, e)]
  simpa using h

end Evidence

def Catalog.severity? (code : String) : Option Severity :=
  (canonical.find? code).map (·.severity)

theorem Catalog.code_of_find? {catalog : Catalog} {entry : CatalogEntry} (h : catalog.find? code = some entry) :
    entry.code = code := by
  simpa using List.find?_some h

namespace Diagnostic

open Fields

def catalogued (entry : CatalogEntry) (message source : String) (row : Option Nat) (witness : Option Document)
    (message_ne : message ≠ "") : Diagnostic where
  code := entry.code
  severity := entry.severity
  message := message
  action := entry.action
  stage := entry.stage
  source := some source
  position := row.map fun k => ⟨some k, none, by simp⟩
  witness := witness
  code_ne := entry.code_ne
  message_ne := message_ne
  action_ne := entry.action_ne
  located := by simp

theorem place_ofIndex? (row : Option Nat) :
    place (.ofIndex? row) .null = .ok (row.map fun k => ⟨some k, none, by simp⟩) := by
  cases row with
  | none => rfl
  | some k =>
    have hposition := Position.ofFields_fields ⟨some k, none, by simp⟩
    unfold Position.fields Evidence.ofIndex? at hposition
    simp [place, Evidence.ofIndex?, hposition]

theorem build_eq_catalogued {code message source : String} {entry : CatalogEntry} {e : Evidence}
    {witness : Option Document} (row : Option Nat)
    (hentry : Catalog.canonical.find? code = some entry) (hmessage : message ≠ "") (hsource : source ≠ "")
    (hwitness : e.witness = .ok witness) :
    build { code := .text code, message := .text message, source := .text source, row := .ofIndex? row, witness := e } =
      .ok (catalogued entry message source row witness hmessage) := by
  have hcode := Catalog.code_of_find? hentry
  subst hcode
  have hstored : storedWitness "witness" e = .ok witness := mapError_eq_ok_iff.mpr hwitness
  simp [build, Evidence.isFilled, Evidence.label?, entry.code_ne, hmessage, hsource, hentry, resolve, resolveAction,
    entry.action_ne, place_ofIndex?, assemble, filledText, textOrNull, hstored, bind, Except.bind, Except.mapError,
    catalogued]

end Diagnostic

end RowSweep
