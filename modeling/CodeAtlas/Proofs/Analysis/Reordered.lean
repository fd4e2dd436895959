import CodeAtlas.Proofs.Analysis.Records
import CodeAtlas.Proofs.Forest.Nesting
import CodeAtlas.Proofs.Statistics

/-! The analysis of the same entries in another order. Lists follow the order of the entries, and
nothing else does: tables hold the same, units differ in the order of their dependents, and every
entry stands below the same directory. -/
namespace CodeAtlas

namespace Forest

variable {entries entries' : List Entry}

private theorem roots_perm (hperm : entries.Perm entries')
    (hnodup : (entries.map Entry.path).Nodup) :
    ((ofEntries entries).map Tree.entry).Perm ((ofEntries entries').map Tree.entry) := by
  have hnodup' := (hperm.map Entry.path).nodup_iff.1 hnodup
  rw [roots_ofEntries hnodup, roots_ofEntries hnodup']
  refine (hperm.filter _).trans (List.Perm.of_eq (List.filter_congr fun e _ => ?_))
  rw [isRoot_eq hnodup, isRoot_eq hnodup', hperm.any_eq]

end Forest

namespace SourceUnit

structure Alike (u v : SourceUnit) : Prop where
  rest : { u with dependents := [] } = { v with dependents := [] }
  dependents : u.dependents.Perm v.dependents

variable {records records' : Table Linkage}

private theorem dependentsOf_perm (h : records.SameMap records') (path : String) :
    (dependentsOf path records).Perm (dependentsOf path records') := by
  simp only [dependentsOf]
  split
  · exact .refl _
  · exact (h.perm.filter _).map _

theorem dependents_ofEntry (records : Table Linkage) (e : Entry) :
    (ofEntry records e).dependents = dependentsOf e.path records := by
  simp only [ofEntry]

private theorem alike_ofEntry (h : records.SameMap records') (e : Entry) :
    (ofEntry records e).Alike (ofEntry records' e) := by
  constructor
  · simp only [ofEntry, h e.path]
  · rw [dependents_ofEntry, dependents_ofEntry]
    exact dependentsOf_perm h e.path

private theorem exists_perm_alike {entries entries' : List Entry} (hperm : entries.Perm entries')
    (h : records.SameMap records') : ∃ units, units.Perm (ofEntries entries' records') ∧
      List.Forall₂ Alike (ofEntries entries records) units := by
  refine ⟨ofEntries entries records', (hperm.filter isUnit).map _, ?_⟩
  rw [ofEntries, ofEntries, List.forall₂_map_left_iff, List.forall₂_map_right_iff,
    List.forall₂_same]
  exact fun e _ => alike_ofEntry h e

end SourceUnit

namespace Analysis

variable {extract : Extractor} {records records' result : Table Linkage}
  {entries entries' : List Entry}

theorem get?_recordsFrom (hnodup : (entries.map Entry.path).Nodup)
    (h : recordsFrom extract records entries = .ok result) {key : String} {record : Linkage} :
    result.get? key = some record ↔
      (∃ e ∈ entries, isRecorded e = true ∧ e.path = key ∧
        extract (e.content.getD "") e.path = .ok record) ∨
      records.get? key = some record ∧ ∀ e ∈ entries, isRecorded e = true → e.path ≠ key := by
  induction entries generalizing records with
  | nil =>
    obtain rfl : records = result := Except.ok.inj h
    simp
  | cons e rest ih =>
    obtain ⟨hfresh, hrest⟩ := List.nodup_cons.1 hnodup
    rw [recordsFrom] at h
    cases hrecorded : isRecorded e with
    | false =>
      rw [hrecorded, if_neg Bool.false_ne_true] at h
      simp [ih hrest h, hrecorded]
    | true =>
      rw [hrecorded, if_pos rfl] at h
      cases hextract : extract (e.content.getD "") e.path with
      | error fault => simp [hextract] at h
      | ok own =>
        rw [hextract] at h
        rw [ih hrest h, List.exists_mem_cons_iff, List.forall_mem_cons, hextract]
        by_cases hkey : e.path = key
        · -- No later entry has this path, so the record of this one stays.
          subst hkey
          have hlater : ∀ e' ∈ rest, e'.path ≠ e.path := fun e' he' heq =>
            hfresh (heq ▸ List.mem_map_of_mem he')
          have hnone : ¬∃ e' ∈ rest, isRecorded e' = true ∧ e'.path = e.path ∧
              extract (e'.content.getD "") e'.path = .ok record := by
            rintro ⟨e', he', -, heq, -⟩
            exact hlater e' he' heq
          rw [Table.get?_insert_self, or_iff_right hnone, or_iff_left hnone]
          simp only [hrecorded, true_and, Option.some.injEq, Except.ok.injEq, ne_eq,
            not_true_eq_false, forall_const, false_and, and_false, or_false, and_iff_left_iff_imp]
          exact fun _ e' he' _ => hlater e' he'
        · rw [Table.get?_insert_of_ne (Ne.symm hkey)]
          simp [hkey]

private theorem sameMap_recordsFrom (hperm : entries.Perm entries')
    (hnodup : (entries.map Entry.path).Nodup)
    (h : recordsFrom extract ∅ entries = .ok records)
    (h' : recordsFrom extract ∅ entries' = .ok records') : records.SameMap records' := by
  have hnodup' := (hperm.map Entry.path).nodup_iff.1 hnodup
  intro key
  ext record
  rw [get?_recordsFrom hnodup h, get?_recordsFrom hnodup' h']
  simp only [hperm.mem_iff]

/-- Two analyses that differ in the order of lists and of keys only: the same records, the same
units up to their dependents' order, the same statistics, and forests in which every entry stands
below the same directory. -/
structure SameUpToOrder (a b : Analysis) : Prop where
  name : a.name = b.name
  dependencies : a.dependencies.SameMap b.dependencies
  architecture : ∃ units, units.Perm b.architecture ∧
    List.Forall₂ SourceUnit.Alike a.architecture units
  statistics : a.statistics.Same b.statistics
  roots : (a.files.map Tree.entry).Perm (b.files.map Tree.entry)
  children : ∀ d e, a.files.IsChild d e ↔ b.files.IsChild d e

private theorem sameUpToOrder_of_perm {name : String} {a b : Analysis}
    (hperm : entries.Perm entries') (hnodup : (entries.map Entry.path).Nodup)
    (ha : ofEntries name entries extract = .ok a)
    (hb : ofEntries name entries' extract = .ok b) : a.SameUpToOrder b := by
  have hnodup' := (hperm.map Entry.path).nodup_iff.1 hnodup
  obtain ⟨records, hrecords, rfl⟩ := ofEntries_eq_ok_iff.1 ha
  obtain ⟨records', hrecords', rfl⟩ := ofEntries_eq_ok_iff.1 hb
  have hsame := sameMap_recordsFrom hperm hnodup hrecords hrecords'
  exact {
    name := rfl
    dependencies := hsame
    architecture := SourceUnit.exists_perm_alike hperm hsame
    statistics := Statistics.same_of_perm hperm hsame
    roots := Forest.roots_perm hperm hnodup
    children := fun d e => by
      rw [Forest.isChild_ofEntries_iff hnodup, Forest.isChild_ofEntries_iff hnodup',
        hperm.mem_iff, hperm.mem_iff] }

theorem exists_error_of_not_extracted {name : String} {e : Entry} (he : e ∈ entries)
    (hrecorded : isRecorded e = true) (hextract : ¬IsExtracted extract e) :
    ∃ fault, ofEntries name entries extract = .error fault := by
  cases hresult : ofEntries name entries extract with
  | error fault => exact ⟨fault, rfl⟩
  | ok analysis =>
    exact absurd ((exists_ofEntries_iff name).1 ⟨analysis, hresult⟩ e he hrecorded) hextract

/-- Entries with distinct paths have the same analysis in every order, up to the order of lists and
of keys, and so one summary. If the extractor fails at one of the entries, there is no analysis in
any order. -/
theorem reordered_entries (name : String) (extract : Extractor) (hperm : entries.Perm entries')
    (hnodup : (entries.map Entry.path).Nodup) :
    ((∀ e ∈ entries, isRecorded e = true → IsExtracted extract e) ∧
      ∃ a b, ofEntries name entries extract = .ok a ∧ ofEntries name entries' extract = .ok b ∧
        a.SameUpToOrder b ∧
        ∀ title, Statistics.summary title a.statistics = Statistics.summary title b.statistics) ∨
    ((∃ e ∈ entries, isRecorded e = true ∧ ¬IsExtracted extract e) ∧
      (∃ fault, ofEntries name entries extract = .error fault) ∧
      ∃ fault, ofEntries name entries' extract = .error fault) := by
  by_cases hextract : ∀ e ∈ entries, isRecorded e = true → IsExtracted extract e
  · obtain ⟨a, ha⟩ := (exists_ofEntries_iff name).2 hextract
    obtain ⟨b, hb⟩ := (exists_ofEntries_iff name).2 fun e he =>
      hextract e (hperm.mem_iff.2 he)
    have hsame := sameUpToOrder_of_perm hperm hnodup ha hb
    exact .inl ⟨hextract, a, b, ha, hb, hsame, hsame.statistics.summary_eq⟩
  · push Not at hextract
    obtain ⟨e, he, hrecorded, hfails⟩ := hextract
    exact .inr ⟨⟨e, he, hrecorded, hfails⟩, exists_error_of_not_extracted he hrecorded hfails,
      exists_error_of_not_extracted (hperm.mem_iff.1 he) hrecorded hfails⟩

/-- A folder, a file in it, and another file that imports this one. -/
def importingEntries : List Entry := [
  { path := "app", name := "app", kind := .directory, extension := some "" },
  { path := "app/util.ts", name := "util.ts", extension := some ".ts",
    content := some "export const half = 2" },
  { path := "app/main.ts", name := "main.ts", extension := some ".ts",
    content := some "import u from './util'" }]

theorem importingEntries_reversed : ∃ a b,
    ofEntries "app" importingEntries .lexical = .ok a ∧
    ofEntries "app" importingEntries.reverse .lexical = .ok b ∧ a.SameUpToOrder b ∧
    ∀ title, Statistics.summary title a.statistics = Statistics.summary title b.statistics := by
  rcases reordered_entries "app" .lexical importingEntries.reverse_perm.symm (by decide)
    with ⟨-, hsame⟩ | ⟨⟨e, -, -, hfails⟩, -⟩
  · exact hsame
  · exact absurd ⟨_, rfl⟩ hfails

end Analysis

end CodeAtlas
