import CodeAtlas.Proofs.Project
import CodeAtlas.Proofs.Table

/-! What an analysis makes of a list of entries. Only the files among them matter, and each path is
recorded once, however many entries have it. -/
namespace CodeAtlas

namespace Analysis

variable {extract : Extractor} {records result : Table Linkage} {entries : List Entry}

theorem isUnit_of_isRecorded {e : Entry} (h : isRecorded e = true) :
    SourceUnit.isUnit e = true := (Bool.and_eq_true_iff.1 h).1

theorem mem_keys_recordsFrom {key : String}
    (h : recordsFrom extract records entries = .ok result) :
    key ∈ result.keys ↔ key ∈ records.keys ∨ ∃ e ∈ entries, isRecorded e = true ∧ e.path = key := by
  induction entries generalizing records with
  | nil =>
    obtain rfl : records = result := Except.ok.inj h
    simp
  | cons e rest ih =>
    rw [recordsFrom] at h
    cases hrecorded : isRecorded e with
    | false =>
      rw [hrecorded, if_neg Bool.false_ne_true] at h
      simp [ih h, hrecorded]
    | true =>
      rw [hrecorded, if_pos rfl] at h
      cases hextract : extract (e.content.getD "") e.path with
      | error fault => simp [hextract] at h
      | ok record =>
        rw [hextract] at h
        rw [ih h, Table.mem_keys_insert, List.exists_mem_cons_iff, or_assoc, or_left_comm]
        simp only [hrecorded, true_and, eq_comm (b := key)]

/-- Whether the extractor finds a linkage for an entry. -/
def IsExtracted (extract : Extractor) (e : Entry) : Prop :=
  ∃ record, extract (e.content.getD "") e.path = .ok record

private theorem exists_recordsFrom_iff :
    (∃ result, recordsFrom extract records entries = .ok result) ↔
    ∀ e ∈ entries, isRecorded e = true → IsExtracted extract e := by
  induction entries generalizing records with
  | nil => simp [recordsFrom]
  | cons e rest ih =>
    rw [List.forall_mem_cons, recordsFrom]
    cases hrecorded : isRecorded e with
    | false => simp [ih]
    | true =>
      cases hextract : extract (e.content.getD "") e.path with
      | error fault => simp [IsExtracted, hextract]
      | ok record => simp [IsExtracted, hextract, ih]

theorem ofEntries_eq_ok_iff {name : String} {analysis : Analysis} :
    ofEntries name entries extract = .ok analysis ↔
      ∃ records, recordsFrom extract ∅ entries = .ok records ∧ analysis =
        { name
          files := Forest.ofEntries entries
          dependencies := records
          architecture := SourceUnit.ofEntries entries records
          statistics := Statistics.ofEntries entries records } := by
  rw [ofEntries]
  cases recordsFrom extract ∅ entries with
  | error fault => simp
  | ok records => simp [eq_comm]

theorem exists_ofEntries_iff (name : String) :
    (∃ analysis, ofEntries name entries extract = .ok analysis) ↔
      ∀ e ∈ entries, isRecorded e = true → IsExtracted extract e := by
  have hrecords : (∃ result, recordsFrom extract ∅ entries = .ok result) ↔ _ :=
    exists_recordsFrom_iff
  rw [← hrecords]
  simp only [ofEntries_eq_ok_iff]
  constructor
  · rintro ⟨analysis, records, hrecords, -⟩
    exact ⟨records, hrecords⟩
  · rintro ⟨records, hrecords⟩
    exact ⟨_, records, hrecords, rfl⟩

theorem exists_ofEntries_lexical (name : String) (entries : List Entry) :
    ∃ analysis, ofEntries name entries .lexical = .ok analysis :=
  (exists_ofEntries_iff name).2 fun _ _ _ => ⟨_, rfl⟩

def recordedCount (records : Table Linkage) (path : String) : Nat :=
  ((records.get? path).map (·.dependencies.length)).getD 0

private theorem length_dependencies_ofEntry (e : Entry) :
    (SourceUnit.ofEntry records e).dependencies.length = recordedCount records e.path := by
  rw [SourceUnit.ofEntry, recordedCount]
  cases records.get? e.path <;> rfl

private theorem dependencyCount_eq : Statistics.dependencyCount records =
    (records.values.map (·.dependencies.length)).sum := by
  rw [Statistics.dependencyCount, List.length_flatMap]

/-- The units are the code files, one for each entry. The statistics count the dependencies of each
path once. -/
theorem units_of_ofEntries {name : String} {analysis : Analysis}
    (h : ofEntries name entries extract = .ok analysis) :
    analysis.architecture.map SourceUnit.id =
      (entries.filter SourceUnit.isUnit).map Entry.path ∧
    ∃ count : String → Nat,
      (∀ unit ∈ analysis.architecture, unit.dependencies.length = count unit.id) ∧
      analysis.statistics.dependencies =
        (((analysis.architecture.map SourceUnit.id).dedup.map count).sum : Nat) := by
  obtain ⟨records, hrecords, rfl⟩ := ofEntries_eq_ok_iff.1 h
  have hids : (SourceUnit.ofEntries entries records).map SourceUnit.id =
      (entries.filter SourceUnit.isUnit).map Entry.path := by
    rw [SourceUnit.ofEntries, List.map_map]
    rfl
  refine ⟨hids, recordedCount records, fun unit hunit => ?_, ?_⟩
  · obtain ⟨e, -, rfl⟩ := List.mem_map.1 hunit
    exact length_dependencies_ofEntry e
  · -- Every record belongs to a unit, and a path without a record counts for nothing.
    have hkeys : ∀ key ∈ records.keys,
        key ∈ ((entries.filter SourceUnit.isUnit).map Entry.path).dedup := by
      intro key hkey
      rcases (mem_keys_recordsFrom hrecords).1 hkey with hkey | ⟨e, he, hrecorded, rfl⟩
      · cases hkey
      · have hunit := List.mem_filter.2 ⟨he, isUnit_of_isRecorded hrecorded⟩
        exact List.mem_dedup.2 (List.mem_map_of_mem hunit)
    have hcount : Statistics.dependencyCount records = _ := dependencyCount_eq
    rw [hids]
    refine hcount.trans (congrArg Nat.cast ?_)
    exact (Table.sum_map_get? (·.dependencies.length) (List.nodup_dedup _) hkeys).symm

theorem dependencies_eq_sum {architecture : List SourceUnit} {count : String → Nat}
    (hcount : ∀ unit ∈ architecture, unit.dependencies.length = count unit.id)
    (hids : (architecture.map SourceUnit.id).Nodup) :
    ((architecture.map SourceUnit.id).dedup.map count).sum =
      (architecture.map fun unit => unit.dependencies.length).sum := by
  rw [hids.dedup, List.map_map]
  exact congrArg List.sum (List.map_congr_left fun unit hunit => (hcount unit hunit).symm)

def undated (e : Entry) : Entry := { e with lastModified := none }

def essentials (entries : List Entry) : List Entry := (entries.filter Entry.isFile).map undated

/-- Two analyses find the same units with the same records and the same statistics. -/
structure Agrees (a b : Analysis) : Prop where
  architecture : a.architecture = b.architecture
  dependencies : a.dependencies = b.dependencies
  statistics : a.statistics = b.statistics

theorem isUnit_of_isFile_eq_false {e : Entry} (h : e.isFile = false) :
    SourceUnit.isUnit e = false := by
  rw [SourceUnit.isUnit, h, Bool.false_and]

theorem recordsFrom_essentials (entries : List Entry) :
    recordsFrom extract records (essentials entries) = recordsFrom extract records entries := by
  induction entries generalizing records with
  | nil => rfl
  | cons e rest ih =>
    cases hfile : e.isFile with
    | false =>
      have hrecorded : isRecorded e = false := by
        rw [isRecorded, isUnit_of_isFile_eq_false hfile, Bool.false_and]
      rw [essentials, List.filter_cons_of_neg (by simp [hfile]), recordsFrom, hrecorded,
        if_neg Bool.false_ne_true]
      exact ih
    | true =>
      have hstep : essentials (e :: rest) = undated e :: essentials rest := by
        rw [essentials, List.filter_cons_of_pos hfile]
        rfl
      have hsame : isRecorded (undated e) = isRecorded e := rfl
      have hextract : extract ((undated e).content.getD "") (undated e).path =
          extract (e.content.getD "") e.path := rfl
      rw [hstep, recordsFrom, recordsFrom, hsame, hextract]
      split
      · cases extract (e.content.getD "") e.path with
        | error fault => rfl
        | ok record => exact ih
      · exact ih

theorem units_essentials (entries : List Entry) :
    SourceUnit.ofEntries (essentials entries) records = SourceUnit.ofEntries entries records := by
  have hunits : (entries.filter Entry.isFile).filter SourceUnit.isUnit =
      entries.filter SourceUnit.isUnit := by
    rw [List.filter_filter]
    refine List.filter_congr fun e _ => ?_
    cases hfile : e.isFile with
    | false => rw [isUnit_of_isFile_eq_false hfile, Bool.false_and]
    | true => rw [Bool.and_true]
  rw [SourceUnit.ofEntries, SourceUnit.ofEntries, essentials, List.filter_map, List.map_map,
    ← hunits]
  rfl

theorem filter_isFile_essentials (entries : List Entry) :
    (essentials entries).filter Entry.isFile = essentials entries := by
  refine List.filter_eq_self.2 fun e he => ?_
  obtain ⟨own, hown, rfl⟩ := List.mem_map.1 he
  exact (List.mem_filter.1 hown).2

theorem essentials_essentials (entries : List Entry) :
    essentials (essentials entries) = essentials entries := by
  rw [essentials, filter_isFile_essentials, essentials, List.map_map]
  rfl

theorem statistics_essentials (entries : List Entry) :
    Statistics.ofEntries (essentials entries) records = Statistics.ofEntries entries records := by
  rw [Statistics.ofEntries, filter_isFile_essentials, essentials, List.foldl_map]
  rfl

theorem agrees_of_essentials {name name' : String} {entries entries' : List Entry}
    {a b : Analysis} (h : essentials entries = essentials entries')
    (ha : ofEntries name entries extract = .ok a) (hb : ofEntries name' entries' extract = .ok b) :
    a.Agrees b := by
  obtain ⟨records, hrecords, rfl⟩ := ofEntries_eq_ok_iff.1 ha
  obtain ⟨records', hrecords', rfl⟩ := ofEntries_eq_ok_iff.1 hb
  rw [← recordsFrom_essentials, h, recordsFrom_essentials, hrecords'] at hrecords
  obtain rfl := Except.ok.inj hrecords
  refine ⟨?_, rfl, ?_⟩
  · simp only [← units_essentials entries, h, units_essentials]
  · simp only [← statistics_essentials entries, h, statistics_essentials]

end Analysis

namespace Project

theorem exists_entries_of_analyze {candidates : List Candidate} {name : Option String}
    {extract : Extractor} {limit : Int} {analysis : Analysis}
    (h : (analyze candidates name extract limit).2 = .ok analysis) :
    ∃ entries, (candidates.filter Candidate.isSelected).map Candidate.read = entries.map .ok ∧
      Analysis.ofEntries (nameOf name candidates) entries extract = .ok analysis := by
  rcases Int.lt_or_le limit 0 with hnegative | hlimit
  · have hfailed : limitOf none limit = .error .negativeLimit := if_pos hnegative
    rw [analyze, read, hfailed] at h
    cases h
  · obtain ⟨limit, rfl⟩ := Int.eq_ofNat_of_zero_le hlimit
    rw [analyze_snd] at h
    exact result_eq_ok_iff.1 h

theorem exists_analyze_lexical {candidates : List Candidate} {entries : List Entry}
    (h : (candidates.filter Candidate.isSelected).map Candidate.read = entries.map .ok)
    (name : Option String) (limit : Nat) :
    ∃ analysis, (analyze candidates name .lexical limit).2 = .ok analysis ∧
      Analysis.ofEntries (nameOf name candidates) entries .lexical = .ok analysis := by
  obtain ⟨analysis, hentries⟩ := Analysis.exists_ofEntries_lexical (nameOf name candidates) entries
  rw [analyze_snd]
  exact ⟨analysis, result_eq_ok_iff.2 ⟨entries, h, hentries⟩, hentries⟩

end Project

end CodeAtlas
