import CodeAtlas.Proofs.Analysis.Records
import CodeAtlas.Proofs.Statistics

/-! Units against statistics. Both are made from the same files, one by leaving out what is no
program text and the other by counting everything, so the counts of the one are parts of the counts
of the other. -/
namespace CodeAtlas

private theorem Role.name_injective {r s : Role} : r.name = s.name ↔ r = s := by
  refine ⟨fun h => Option.some.inj ?_, congrArg name⟩
  rw [← ofName?_name r, h, ofName?_name s]

structure Entry.IsRead (e : Entry) : Prop where
  extension : e.extension = some (Path.extension e.path)
  content : e.isFile = true → e.content.isSome = true

private theorem Candidate.isRead_of_read {c : Candidate} {e : Entry} (h : c.read = .ok e) :
    e.IsRead := by
  rw [read] at h
  cases hdirectory : c.isDirectory with
  | true =>
    rw [hdirectory, if_pos rfl] at h
    obtain rfl := Except.ok.inj h
    exact ⟨rfl, fun hfile => by simp [Entry.isFile, toEntry, hdirectory] at hfile⟩
  | false =>
    rw [hdirectory, if_neg Bool.false_ne_true] at h
    split at h
    · cases h
    · cases h
    · obtain rfl := Except.ok.inj h
      exact ⟨rfl, fun _ => rfl⟩

private theorem isRead_of_map_read {candidates : List Candidate} {entries : List Entry}
    (h : candidates.map Candidate.read = entries.map .ok) : ∀ e ∈ entries, e.IsRead := by
  intro e he
  have hok : Except.ok e ∈ candidates.map Candidate.read := h ▸ List.mem_map_of_mem he
  obtain ⟨c, -, hread⟩ := List.mem_map.1 hok
  exact Candidate.isRead_of_read hread

namespace Histogram

theorem sum_values_ofKeys (keys : List String) : (ofKeys keys).values.sum = keys.length := by
  have hall := sumWhere_ofKeys keys fun _ => true
  rwa [sumWhere, List.filter_true, List.countP_true] at hall

end Histogram

namespace Statistics

variable {entries : List Entry} {records : Table Linkage}

private theorem typeOf_of_isRead {e : Entry} (h : e.IsRead) : typeOf e = Path.extension e.path := by
  rw [typeOf, h.extension, Option.getD_some]

theorem filter_hasContent (h : ∀ e ∈ entries, e.IsRead) :
    (entries.filter Entry.isFile).filter hasContent = entries.filter Entry.isFile := by
  refine List.filter_eq_self.2 fun e he => ?_
  obtain ⟨hmem, hfile⟩ := List.mem_filter.1 he
  exact (h e hmem).content hfile

theorem sumWhere_fileTypes (p : String → Bool) : (ofEntries entries records).fileTypes.sumWhere p =
    (entries.filter Entry.isFile).countP fun e => p (typeOf e) := by
  rw [ofEntries_eq, Histogram.sumWhere_ofKeys, List.countP_map]
  rfl

theorem getD_roles (role : Role) : (ofEntries entries records).roles.getD role.name 0 =
    (entries.filter Entry.isFile).countP fun e => roleOf e = role := by
  rw [ofEntries_eq, Histogram.getD_ofKeys, List.count_eq_countP, List.countP_map]
  refine congrArg Nat.cast (List.countP_congr fun e _ => ?_)
  simp only [Function.comp_apply, beq_iff_eq, decide_eq_true_eq, Role.name_injective]

private theorem getD_languages (h : ∀ e ∈ entries, e.IsRead) (language : String) :
    (ofEntries entries records).languages.getD language 0 =
      (ofEntries entries records).fileTypes.sumWhere fun extension =>
        Language.nameOf extension == language := by
  rw [sumWhere_fileTypes, ofEntries_eq, Histogram.getD_ofKeys, filter_hasContent h,
    List.count_eq_countP, List.countP_map]
  rfl

private theorem sums_of_isRead (h : ∀ e ∈ entries, e.IsRead) :
    (ofEntries entries records).fileTypes.values.sum = (ofEntries entries records).totalFiles ∧
    (ofEntries entries records).languages.values.sum = (ofEntries entries records).totalFiles ∧
    (ofEntries entries records).roles.values.sum = (ofEntries entries records).totalFiles := by
  simp only [ofEntries_eq, Histogram.sum_values_ofKeys, List.length_map, filter_hasContent h,
    and_self]

end Statistics

namespace SourceUnit

variable {entries : List Entry} {records : Table Linkage}

private theorem isUnit_eq_of_isRead {e : Entry} (h : e.IsRead) : isUnit e =
    (Language.code.contains (Text.lower (Statistics.typeOf e)) && e.isFile) := by
  rw [isUnit, Language.isCode, Statistics.typeOf_of_isRead h, Bool.and_comm]

private theorem role_ofEntry (e : Entry) : (ofEntry records e).role = Statistics.roleOf e := by
  simp only [ofEntry, Statistics.roleOf]

private theorem length_ofEntries (h : ∀ e ∈ entries, e.IsRead) :
    (ofEntries entries records).length = (entries.filter Entry.isFile).countP fun e =>
      Language.code.contains (Text.lower (Statistics.typeOf e)) := by
  rw [ofEntries, List.length_map, ← List.countP_eq_length_filter, List.countP_filter]
  exact List.countP_congr fun e he => by rw [isUnit_eq_of_isRead (h e he)]

private theorem countP_role_add (entries : List Entry) (records : Table Linkage) (role : Role) :
    (ofEntries entries records).countP (fun unit => unit.role = role) +
      entries.countP (fun e => e.isFile && !Language.isCode e.path &&
        decide (Statistics.roleOf e = role)) =
    (entries.filter Entry.isFile).countP fun e => Statistics.roleOf e = role := by
  have hunits : (ofEntries entries records).countP (fun unit => unit.role = role) =
      ((entries.filter Entry.isFile).filter fun e => Language.isCode e.path).countP fun e =>
        Statistics.roleOf e = role := by
    rw [ofEntries, List.countP_map, List.filter_filter]
    simp only [Function.comp_def, role_ofEntry, Bool.and_comm]
    rfl
  have hothers : entries.countP (fun e => e.isFile && !Language.isCode e.path &&
      decide (Statistics.roleOf e = role)) =
      ((entries.filter Entry.isFile).filter fun e => !Language.isCode e.path).countP fun e =>
        Statistics.roleOf e = role := by
    rw [List.filter_filter, List.countP_filter]
    simp only [Bool.and_comm]
  rw [hunits, hothers]
  exact (List.countP_eq_countP_filter_add _ _ _).symm

end SourceUnit

namespace Project

/-- The statistics of a project speak of its units: program text makes one unit for each file, the
units of a role are the files of that role but for those that are no program text, and the languages
are the extensions put together. -/
theorem units_in_statistics {candidates : List Candidate} {name : Option String}
    {extract : Extractor} {limit : Int} {analysis : Analysis}
    (h : (analyze candidates name extract limit).2 = .ok analysis) :
    ∃ entries : List Entry,
      (candidates.filter Candidate.isSelected).map Candidate.read = entries.map .ok ∧
      let statistics := analysis.statistics
      (analysis.architecture.length : Int) = statistics.fileTypes.sumWhere (fun extension =>
        Language.code.contains (Text.lower extension)) ∧
      (∀ role : Role,
        let units : Int := analysis.architecture.countP fun unit => unit.role = role
        units ≤ statistics.roles.getD role.name 0 ∧
        statistics.roles.getD role.name 0 - units = entries.countP fun e =>
          e.isFile && !Language.isCode e.path && decide (Statistics.roleOf e = role)) ∧
      (∀ language, statistics.languages.getD language 0 =
        statistics.fileTypes.sumWhere fun extension => Language.nameOf extension == language) ∧
      statistics.fileTypes.values.sum = statistics.totalFiles ∧
      statistics.languages.values.sum = statistics.totalFiles ∧
      statistics.roles.values.sum = statistics.totalFiles := by
  obtain ⟨entries, hread, hentries⟩ := exists_entries_of_analyze h
  have hisRead := isRead_of_map_read hread
  obtain ⟨records, -, rfl⟩ := Analysis.ofEntries_eq_ok_iff.1 hentries
  refine ⟨entries, hread, ?_, fun role => ?_, Statistics.getD_languages hisRead,
    Statistics.sums_of_isRead hisRead⟩
  · simp only [Statistics.sumWhere_fileTypes, SourceUnit.length_ofEntries hisRead]
  · have hcount := SourceUnit.countP_role_add entries records role
    simp only [Statistics.getD_roles, ← hcount, Nat.cast_add]
    omega

/-- A file of program text in capitals, one of another kind with the same role, and a folder. -/
def mixedCandidates : List Candidate := [
  { path := "shop", size := .ok 0, isDirectory := true, text := .ok "" },
  { path := "shop/View.TS", size := .ok 12, isDirectory := false, text := .ok "export class" },
  { path := "shop/view.md", size := .ok 4, isDirectory := false, text := .ok "view" },
  { path := "shop/koa.py", size := .ok 10, isDirectory := false, text := .ok "import koa" }]

theorem mixedCandidates_statistics : ∃ analysis,
    (analyze mixedCandidates none .lexical 6).2 = .ok analysis ∧
    analysis.architecture.map (fun unit => (unit.id, unit.role)) =
      [("shop/View.TS", .component), ("shop/koa.py", .api)] ∧
    analysis.statistics.fileTypes.sumWhere (fun extension =>
      Language.code.contains (Text.lower extension)) = 2 ∧
    analysis.statistics.languages.values.sum = 3 := by
  have hmeasured : (analyze mixedCandidates none .lexical 6).2.toOption.map (fun analysis =>
      (analysis.architecture.map fun unit => (unit.id, unit.role),
        analysis.statistics.totalFiles)) =
      some ([("shop/View.TS", Role.component), ("shop/koa.py", Role.api)], 3) := by decide +kernel
  obtain ⟨analysis, hanalysis, heq⟩ := exists_ok_of_map_toOption hmeasured
  simp only [Prod.mk.injEq] at heq
  obtain ⟨entries, -, hlength, -, -, -, hlanguages, -⟩ := units_in_statistics hanalysis
  have hunits : analysis.architecture.length = 2 := by
    rw [← List.length_map (fun unit : SourceUnit => (unit.id, unit.role)), heq.1]
    rfl
  refine ⟨analysis, hanalysis, heq.1, ?_, hlanguages.trans heq.2⟩
  rw [← hlength, hunits]
  rfl

end Project

end CodeAtlas
