import CodeAtlas.Proofs.Analysis.Recorded
import CodeAtlas.Upload

/-! What an upload is read as, and the units that an analysis of uploads is about. Parts of one form
may have the same path, and there is a unit for each of them, but only one record. -/
namespace CodeAtlas

namespace Upload

/-- The path that a part of a form stands for. -/
def path (u : Upload) : String := pathOf (u.fileName.getD "")

def isNamed (u : Upload) : Bool := u.fileName.getD "" != ""

def isCodeFile (u : Upload) : Bool :=
  u.isNamed && !u.toCandidate.isDirectory && Language.isCode u.path

/-- The entry that a part becomes. -/
def entry (u : Upload) : Entry :=
  if u.toCandidate.isDirectory then u.toCandidate.toEntry 0 none
  else u.toCandidate.toEntry (u.size.getD 0) (some (Text.decodeUtf8 u.bytes))

/-- The parts that take part in an analysis. -/
def selected (uploads : List Upload) : List Upload :=
  uploads.filter fun u => u.isNamed && u.toCandidate.isSelected

theorem read_toCandidate (u : Upload) : u.toCandidate.read = .ok u.entry := by
  rw [Candidate.read, entry]
  cases hdirectory : u.toCandidate.isDirectory <;> rfl

@[simp] theorem path_entry (u : Upload) : u.entry.path = u.path := by
  rw [entry]
  cases u.toCandidate.isDirectory <;> rfl

@[simp] theorem isFile_entry (u : Upload) : u.entry.isFile = !u.toCandidate.isDirectory :=
  Candidate.isFile_of_read u.read_toCandidate

private theorem filter_candidates (uploads : List Upload) :
    (candidates uploads).filter Candidate.isSelected = (selected uploads).map toCandidate := by
  rw [candidates, selected, List.filter_map, List.filter_filter]
  exact congrArg _ (List.filter_congr fun u _ => Bool.and_comm ..)

theorem map_read_candidates (uploads : List Upload) :
    ((candidates uploads).filter Candidate.isSelected).map Candidate.read =
      ((selected uploads).map entry).map .ok := by
  simp only [filter_candidates, List.map_map, Function.comp_def, read_toCandidate]

/-- The paths of the files of program text, in order, each as often as it is uploaded. -/
def codePaths (uploads : List Upload) : List String := (uploads.filter isCodeFile).map path

private theorem isUnit_entry (u : Upload) : SourceUnit.isUnit u.entry =
    (!u.toCandidate.isDirectory && Language.isCode u.path) := by
  rw [SourceUnit.isUnit, isFile_entry, path_entry]

private theorem filter_isUnit_selected (uploads : List Upload) :
    (selected uploads).filter (fun u => SourceUnit.isUnit u.entry) = uploads.filter isCodeFile := by
  rw [selected, List.filter_filter]
  refine List.filter_congr fun u _ => ?_
  rw [isUnit_entry, isCodeFile, Candidate.isSelected]
  cases hcode : Language.isCode u.path with
  | false => simp
  | true =>
    have hread : Language.isAnalyzable u.toCandidate.path = true :=
      Language.isAnalyzable_of_isCode hcode
    rw [hread]
    cases u.isNamed <;> simp

private theorem map_path_units (uploads : List Upload) :
    (((selected uploads).map entry).filter SourceUnit.isUnit).map Entry.path =
      codePaths uploads := by
  rw [codePaths, ← filter_isUnit_selected, List.filter_map, List.map_map]
  exact List.map_congr_left fun u _ => path_entry u

variable {uploads : List Upload} {name : Option String} {extract : Extractor} {limit : Int}
  {analysis : Analysis}

private theorem ofEntries_of_analyze
    (h : (Project.analyze (candidates uploads) name extract limit).2 = .ok analysis) :
    Analysis.ofEntries (Project.nameOf name (candidates uploads)) ((selected uploads).map entry)
      extract = .ok analysis := by
  obtain ⟨entries, hread, hentries⟩ := Project.exists_entries_of_analyze h
  rw [map_read_candidates] at hread
  rwa [List.map_injective_iff.2 (fun _ _ => Except.ok.inj) hread]

/-- There is one unit for each file of program text. The statistics count the dependencies of each
path once, and so they agree with the units as long as no two of the files have one path. -/
theorem units_of_uploads
    (h : (Project.analyze (candidates uploads) name extract limit).2 = .ok analysis) :
    analysis.architecture.map SourceUnit.id = codePaths uploads ∧
    (∃ count : String → Nat,
      (∀ unit ∈ analysis.architecture, unit.dependencies.length = count unit.id) ∧
      analysis.statistics.dependencies = (((codePaths uploads).dedup.map count).sum : Nat)) ∧
    ((codePaths uploads).Nodup ↔ (analysis.architecture.map SourceUnit.id).Nodup ∧
      analysis.statistics.dependencies =
        ((analysis.architecture.map fun unit => unit.dependencies.length).sum : Nat)) := by
  obtain ⟨hids, count, hcount, hdependencies⟩ :=
    Analysis.units_of_ofEntries (ofEntries_of_analyze h)
  rw [map_path_units] at hids
  rw [hids] at hdependencies ⊢
  refine ⟨rfl, ⟨count, hcount, hdependencies⟩, fun hdistinct => ⟨hdistinct, ?_⟩, And.left⟩
  rw [hdependencies, ← hids, Analysis.dependencies_eq_sum hcount (hids ▸ hdistinct)]

/-- A part with the text `import a from 'b'`. -/
def importing (fileName : String) : Upload where
  fileName := some fileName
  bytes := [0x69, 0x6d, 0x70, 0x6f, 0x72, 0x74, 0x20, 0x61, 0x20, 0x66, 0x72, 0x6f, 0x6d, 0x20,
    0x27, 0x62, 0x27]
  size := some 17
  mediaType := some "text/plain"

theorem units_of_two_files : ∃ analysis,
    let uploads := [importing "/app/main.ts", importing "app\\util.ts"]
    (Project.analyze (candidates uploads) none .lexical 6).2 = .ok analysis ∧
    analysis.architecture.map SourceUnit.id = ["app/main.ts", "app/util.ts"] ∧
    analysis.statistics.dependencies =
      ((analysis.architecture.map fun unit => unit.dependencies.length).sum : Nat) := by
  obtain ⟨analysis, hanalysis, -⟩ := Project.exists_analyze_lexical
    (map_read_candidates [importing "/app/main.ts", importing "app\\util.ts"]) none 6
  obtain ⟨hids, -, hdistinct⟩ := units_of_uploads hanalysis
  have hpaths : codePaths [importing "/app/main.ts", importing "app\\util.ts"] =
      ["app/main.ts", "app/util.ts"] := by decide +kernel
  rw [hpaths] at hids hdistinct
  exact ⟨analysis, hanalysis, hids, (hdistinct.1 (by decide)).2⟩

theorem two_units_of_one_path : ∃ analysis,
    let uploads := [importing "app/main.ts", importing "app\\main.ts"]
    (Project.analyze (candidates uploads) none .lexical 6).2 = .ok analysis ∧
    analysis.architecture.map SourceUnit.id = ["app/main.ts", "app/main.ts"] ∧
    analysis.statistics.dependencies = 1 ∧
    (analysis.architecture.map fun unit => unit.dependencies.length).sum = 2 := by
  have hmeasured : (Project.analyze (candidates
        [importing "app/main.ts", importing "app\\main.ts"]) none .lexical 6).2.toOption.map
      (fun analysis => (analysis.architecture.map SourceUnit.id, analysis.statistics.dependencies,
        (analysis.architecture.map fun unit => unit.dependencies.length).sum)) =
      some (["app/main.ts", "app/main.ts"], 1, 2) := by decide +kernel
  obtain ⟨analysis, hanalysis, heq⟩ := exists_ok_of_map_toOption hmeasured
  simp only [Prod.mk.injEq] at heq
  exact ⟨analysis, hanalysis, heq⟩

end Upload

end CodeAtlas
