import CodeAtlas.Proofs.Analysis.Records
import CodeAtlas.Proofs.Path

/-! The dependents of units. Only files of program text are recorded, and each of them is a unit, so
every dependent is a unit itself. Base names decide who depends on whom: units of one base name have
the same dependents, themselves left aside. -/
namespace CodeAtlas

private theorem Language.ne_empty_of_isCode {path : String} (h : isCode path = true) :
    path ≠ "" := by
  rintro rfl
  revert h
  decide

namespace SourceUnit

/-- Whether the linkage recorded under a path mentions a text in one of its dependencies. -/
def Mentions (records : Table Linkage) (path key : String) : Prop :=
  ∃ record, records.get? path = some record ∧
    ∃ dependency ∈ record.dependencies, key.toList <:+: dependency.toList

variable {records : Table Linkage} {path : String}

private theorem dependentsOf_sublist (path : String) (records : Table Linkage) :
    (dependentsOf path records).Sublist records.keys := by
  simp only [dependentsOf]
  split
  · exact List.nil_sublist _
  · exact List.filter_sublist.map _

theorem mem_dependentsOf_iff (hbase : Path.baseName path ≠ "") {other : String} :
    other ∈ dependentsOf path records ↔
      other ≠ path ∧ Mentions records other (Path.baseName path) := by
  simp only [dependentsOf, if_neg hbase, Mentions, List.mem_map, List.mem_filter,
    Bool.and_eq_true, bne_iff_ne, List.any_eq_true, Text.contains, Text.occursIn_iff]
  constructor
  · rintro ⟨⟨own, record⟩, ⟨hmem, hne, hmentions⟩, rfl⟩
    exact ⟨hne, record, Table.get?_eq_some_iff.2 hmem, hmentions⟩
  · rintro ⟨hne, record, hrecord, hmentions⟩
    exact ⟨(other, record), ⟨Table.get?_eq_some_iff.1 hrecord, hne, hmentions⟩, rfl⟩

private theorem filter_dependentsOf {other : String}
    (hbase : Path.baseName path = Path.baseName other) :
    (dependentsOf path records).filter (fun p => p != path && p != other) =
      (dependentsOf other records).filter fun p => p != path && p != other := by
  simp only [dependentsOf, hbase]
  split
  · rfl
  · simp only [List.filter_map, List.filter_filter]
    refine congrArg _ (List.filter_congr fun entry _ => ?_)
    simp only [Function.comp_apply]
    cases entry.1 != path <;> cases entry.1 != other <;> simp

theorem eq_ofEntry_of_mem {entries : List Entry} {unit : SourceUnit}
    (h : unit ∈ ofEntries entries records) :
    ∃ e ∈ entries, isUnit e = true ∧ unit.id = e.path ∧ unit.path = e.path ∧
      unit.dependents = dependentsOf e.path records := by
  obtain ⟨e, he, rfl⟩ := List.mem_map.1 h
  obtain ⟨hmem, hunit⟩ := List.mem_filter.1 he
  refine ⟨e, hmem, hunit, ?_⟩
  simp only [ofEntry, and_self]

private theorem mem_map_id_iff {entries : List Entry} {id : String} :
    id ∈ (ofEntries entries records).map SourceUnit.id ↔
      ∃ e ∈ entries, isUnit e = true ∧ e.path = id := by
  simp only [ofEntries, List.map_map, List.mem_map, List.mem_filter, Function.comp_apply, ofEntry,
    and_assoc]

private theorem baseName_ne_empty {e : Entry} (h : isUnit e = true) :
    Path.baseName e.path ≠ "" := by
  have hcode : Language.isCode e.path = true := (Bool.and_eq_true_iff.1 h).2
  exact fun hbase => Language.ne_empty_of_isCode hcode (Path.baseName_eq_empty_iff.1 hbase)

end SourceUnit

namespace Analysis

/-- An extractor that never fails leads to an analysis. In it the dependents of a unit are, in the
order of the records, the other paths whose record mentions the base name of the unit, and all of
them are units. -/
theorem dependents_of_units (name : String) (entries : List Entry) {extract : Extractor}
    (hextract : ∀ content path, ∃ record, extract content path = .ok record) :
    ∃ analysis, ofEntries name entries extract = .ok analysis ∧
      (∀ unit ∈ analysis.architecture,
        unit.dependents.Nodup ∧ unit.id ∉ unit.dependents ∧
        (∀ path ∈ unit.dependents, path ∈ analysis.architecture.map SourceUnit.id) ∧
        unit.dependents.Sublist analysis.dependencies.keys ∧
        (∀ path, path ∈ unit.dependents ↔ path ≠ unit.path ∧
          SourceUnit.Mentions analysis.dependencies path (Path.baseName unit.path)) ∧
        Path.baseName unit.path ≠ "") ∧
      ∀ unit ∈ analysis.architecture, ∀ other ∈ analysis.architecture,
        Path.baseName unit.path = Path.baseName other.path →
        unit.dependents.filter (fun path => path != unit.id && path != other.id) =
          other.dependents.filter fun path => path != unit.id && path != other.id := by
  obtain ⟨analysis, hanalysis⟩ := (exists_ofEntries_iff name).2
    fun (e : Entry) (_ : e ∈ entries) _ => hextract (e.content.getD "") e.path
  refine ⟨analysis, hanalysis, ?_⟩
  obtain ⟨records, hrecords, rfl⟩ := ofEntries_eq_ok_iff.1 hanalysis
  constructor
  · intro unit hunit
    obtain ⟨e, he, hcode, hid, hpath, hdependents⟩ := SourceUnit.eq_ofEntry_of_mem hunit
    have hbase := SourceUnit.baseName_ne_empty hcode
    have hsublist := SourceUnit.dependentsOf_sublist e.path records
    rw [hid, hpath, hdependents]
    refine ⟨hsublist.nodup records.nodup, fun hself => ?_, fun path hmem => ?_, hsublist,
      fun path => SourceUnit.mem_dependentsOf_iff hbase, hbase⟩
    · exact ((SourceUnit.mem_dependentsOf_iff hbase).1 hself).1 rfl
    · -- What is recorded is a file of program text, and so it is a unit.
      rcases (mem_keys_recordsFrom hrecords).1 (hsublist.subset hmem) with hnone | ⟨d, hd, hd', rfl⟩
      · cases hnone
      · exact SourceUnit.mem_map_id_iff.2 ⟨d, hd, isUnit_of_isRecorded hd', rfl⟩
  · intro unit hunit other hother hbase
    obtain ⟨e, -, -, hid, hpath, hdependents⟩ := SourceUnit.eq_ofEntry_of_mem hunit
    obtain ⟨e', -, -, hid', hpath', hdependents'⟩ := SourceUnit.eq_ofEntry_of_mem hother
    rw [hpath, hpath'] at hbase
    rw [hid, hid', hdependents, hdependents']
    exact SourceUnit.filter_dependentsOf hbase

/-- Two files of one name, of which one imports that name, and a third file that imports it. -/
def namesakes : List Entry := [
  { path := "ui/button.ts", name := "button.ts", content := some "export class Button" },
  { path := "old/button.ts", name := "button.ts", content := some "import b from '../ui/button'" },
  { path := "app.ts", name := "app.ts", content := some "import b from './ui/button'" }]

theorem namesakes_dependents : ∃ analysis, ofEntries "app" namesakes .lexical = .ok analysis ∧
    analysis.architecture.map (fun unit => (unit.id, unit.dependents)) =
      [("ui/button.ts", ["old/button.ts", "app.ts"]), ("old/button.ts", ["app.ts"]),
        ("app.ts", [])] ∧
    ∀ unit ∈ analysis.architecture, ∀ path ∈ unit.dependents,
      path ∈ analysis.architecture.map SourceUnit.id := by
  have hlexical : ∀ content path, ∃ record, Extractor.lexical content path = .ok record :=
    fun _ _ => ⟨_, rfl⟩
  obtain ⟨analysis, hanalysis, hunits, -⟩ := dependents_of_units "app" namesakes hlexical
  have hmeasured : (ofEntries "app" namesakes .lexical).toOption.map
      (fun analysis => analysis.architecture.map fun unit => (unit.id, unit.dependents)) =
      some [("ui/button.ts", ["old/button.ts", "app.ts"]), ("old/button.ts", ["app.ts"]),
        ("app.ts", [])] := by decide +kernel
  rw [hanalysis] at hmeasured
  exact ⟨analysis, hanalysis, Option.some.inj hmeasured,
    fun unit hunit => (hunits unit hunit).2.2.1⟩

end Analysis

end CodeAtlas
