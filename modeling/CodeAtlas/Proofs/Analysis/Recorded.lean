import CodeAtlas.Proofs.Analysis.Records

/-! Records against units. A unit is made of every file of program text, a record only of those with
some text in them; so the two name the same files, in the same order, when no such file is empty. -/
namespace CodeAtlas

theorem Language.isAnalyzable_of_isCode {path : String} (h : isCode path = true) :
    isAnalyzable path = true := by
  have hcode : ∀ extension ∈ code, extension ∈ supported := by decide +kernel
  rw [isCode, List.contains_iff_mem] at h
  simp only [isAnalyzable, Bool.or_eq_true, List.contains_iff_mem]
  exact .inr (hcode _ h)

namespace Candidate

/-- Whether a candidate is a file of program text. -/
def isUnit (c : Candidate) : Bool := !c.isDirectory && Language.isCode c.path

/-- Whether a candidate has a text with nothing in it. -/
def isBlank (c : Candidate) : Bool := c.text.toOption == some ""

variable {c : Candidate} {e : Entry}

theorem isSelected_of_isUnit (h : c.isUnit = true) : c.isSelected = true := by
  obtain ⟨-, hcode⟩ := Bool.and_eq_true_iff.1 h
  rw [isSelected, Language.isAnalyzable_of_isCode hcode, Bool.or_true]

theorem path_of_read (h : c.read = .ok e) : e.path = c.path := by
  rw [read] at h
  split at h
  · cases h
    rfl
  · split at h <;> cases h
    rfl

private theorem text_of_read (h : c.read = .ok e) (hfile : c.isDirectory = false) :
    c.text = .ok (e.content.getD "") := by
  rw [read, hfile, if_neg Bool.false_ne_true] at h
  split at h
  · cases h
  · cases h
  · next htext _ =>
    cases h
    exact htext

theorem isUnit_of_read (h : c.read = .ok e) : SourceUnit.isUnit e = c.isUnit := by
  rw [SourceUnit.isUnit, isUnit, isFile_of_read h, path_of_read h]

private theorem isRecorded_of_read (h : c.read = .ok e) :
    Analysis.isRecorded e = (!c.isBlank && c.isUnit) := by
  rw [Analysis.isRecorded, isUnit_of_read h, Bool.and_comm]
  cases hdirectory : c.isDirectory with
  | true => simp [isUnit, hdirectory]
  | false =>
    rw [isBlank, text_of_read h hdirectory]
    rfl

end Candidate

namespace Reading

private theorem map_path_filter {p : Entry → Bool} {q : Candidate → Bool}
    {candidates : List Candidate} {entries : List Entry} (hpq : ∀ c e, c.read = .ok e → p e = q c)
    (h : candidates.map Candidate.read = entries.map .ok) :
    (entries.filter p).map Entry.path = (candidates.filter q).map Candidate.path := by
  induction candidates generalizing entries with
  | nil =>
    obtain rfl := List.map_eq_nil_iff.1 h.symm
    rfl
  | cons c rest ih =>
    cases entries with
    | nil => cases h
    | cons e entries =>
      obtain ⟨hread, hrest⟩ := List.cons.inj h
      have hlater := ih hrest
      rw [List.filter_cons, List.filter_cons, hpq c e hread]
      split
      · rw [List.map_cons, List.map_cons, Candidate.path_of_read hread, hlater]
      · exact hlater

theorem map_path_filter_selected {p : Entry → Bool} {q : Candidate → Bool}
    {candidates : List Candidate} {entries : List Entry}
    (hpq : ∀ c e, c.read = .ok e → p e = q c) (hq : ∀ c, q c = true → c.isSelected = true)
    (h : (candidates.filter Candidate.isSelected).map Candidate.read = entries.map .ok) :
    (entries.filter p).map Entry.path = (candidates.filter q).map Candidate.path := by
  rw [map_path_filter hpq h, List.filter_filter]
  refine congrArg _ (List.filter_congr fun c _ => ?_)
  cases hc : q c with
  | false => rfl
  | true => rw [hq c hc, Bool.and_true]

end Reading

private theorem map_filter_eq_map_iff {α β : Type} {f : α → β} {p : α → Bool} {l : List α} :
    (l.filter p).map f = l.map f ↔ ∀ a ∈ l, p a = true := by
  rw [← List.filter_eq_self]
  refine ⟨fun h => List.filter_sublist.eq_of_length ?_, fun h => congrArg (List.map f) h⟩
  simpa only [List.length_map] using congrArg List.length h

namespace Analysis

private theorem keys_recordsFrom {extract : Extractor} {records result : Table Linkage}
    {entries : List Entry}
    (hdistinct : (records.keys ++ (entries.filter isRecorded).map Entry.path).Nodup)
    (h : recordsFrom extract records entries = .ok result) :
    result.keys = records.keys ++ (entries.filter isRecorded).map Entry.path := by
  induction entries generalizing records with
  | nil =>
    obtain rfl : records = result := Except.ok.inj h
    exact (List.append_nil _).symm
  | cons e rest ih =>
    rw [recordsFrom] at h
    cases hrecorded : isRecorded e with
    | false =>
      rw [hrecorded, if_neg Bool.false_ne_true] at h
      rw [List.filter_cons_of_neg (by simp [hrecorded])] at hdistinct ⊢
      exact ih hdistinct h
    | true =>
      rw [hrecorded, if_pos rfl] at h
      rw [List.filter_cons_of_pos hrecorded, List.map_cons, List.append_cons] at hdistinct ⊢
      have hnew : e.path ∉ records.keys := by
        have hfront := List.nodup_append.1 (List.nodup_append.1 hdistinct).1
        exact fun hmem => hfront.2.2 e.path hmem e.path (List.mem_singleton_self _) rfl
      cases hextract : extract (e.content.getD "") e.path with
      | error fault => simp [hextract] at h
      | ok record =>
        rw [hextract] at h
        have hkeys : (records.insert e.path record).keys = records.keys ++ [e.path] :=
          Table.keys_insert_of_not_mem hnew
        rw [← hkeys] at hdistinct ⊢
        exact ih hdistinct h

private theorem keys_of_ofEntries {name : String} {extract : Extractor} {entries : List Entry}
    {analysis : Analysis} (hdistinct : ((entries.filter isRecorded).map Entry.path).Nodup)
    (h : ofEntries name entries extract = .ok analysis) :
    analysis.dependencies.keys = (entries.filter isRecorded).map Entry.path := by
  obtain ⟨records, hrecords, rfl⟩ := ofEntries_eq_ok_iff.1 h
  exact keys_recordsFrom (show ((∅ : Table Linkage).keys ++ _).Nodup from hdistinct) hrecords

end Analysis

namespace Project

variable {candidates : List Candidate} {entries : List Entry} {limit : Int}

private theorem map_read_of_read (h : (read candidates none limit).2 = .ok entries) :
    (candidates.filter Candidate.isSelected).map Candidate.read = entries.map .ok := by
  rw [read] at h
  split at h
  · cases h
  · rw [← Reading.collect_eq_ok_iff]
    cases hcollect : Reading.collect (candidates.filter Candidate.isSelected) with
    | error e => simp [hcollect] at h
    | ok found => simpa [hcollect] using h

theorem analyze_of_read (h : (read candidates none limit).2 = .ok entries) (name : Option String)
    (extract : Extractor) : (analyze candidates name extract limit).2 =
      (Analysis.ofEntries (nameOf name candidates) entries extract).mapError .raised := by
  unfold analyze
  generalize read candidates none limit = result at h
  obtain ⟨progress, found⟩ := result
  obtain rfl : found = .ok entries := h
  rfl

/-- What can be read can be analysed. If no two candidates have one path, the units are the files of
program text and the records those of them that are not empty, both in the order of the candidates;
so there is a record for each unit if and only if no file of program text is empty. -/
theorem records_of_units (hdistinct : (candidates.map Candidate.path).Nodup)
    (hread : (read candidates none limit).2 = .ok entries) (name : Option String) :
    (∃ analysis, (analyze candidates name .lexical limit).2 = .ok analysis) ∧
    ∀ (extract : Extractor) (analysis : Analysis),
      (analyze candidates name extract limit).2 = .ok analysis →
      let units := candidates.filter Candidate.isUnit
      let ids := analysis.architecture.map SourceUnit.id
      ids = units.map Candidate.path ∧
      analysis.dependencies.keys = (units.filter fun c => !c.isBlank).map Candidate.path ∧
      (analysis.dependencies.keys = ids ↔ ∀ c ∈ units, c.isBlank = false) := by
  have hentries := map_read_of_read hread
  constructor
  · obtain ⟨analysis, hanalysis⟩ :=
      Analysis.exists_ofEntries_lexical (nameOf name candidates) entries
    exact ⟨analysis, by rw [analyze_of_read hread, hanalysis, mapError_ok]⟩
  · intro extract analysis hanalysis units ids
    rw [analyze_of_read hread] at hanalysis
    have hselected : ∀ c : Candidate, (!c.isBlank && c.isUnit) = true → c.isSelected = true :=
      fun c hc => Candidate.isSelected_of_isUnit (Bool.and_eq_true_iff.1 hc).2
    have hunits : (entries.filter SourceUnit.isUnit).map Entry.path = units.map Candidate.path :=
      Reading.map_path_filter_selected (fun _ _ => Candidate.isUnit_of_read)
        (fun _ => Candidate.isSelected_of_isUnit) hentries
    have hrecorded : (entries.filter Analysis.isRecorded).map Entry.path =
        (units.filter fun c => !c.isBlank).map Candidate.path := by
      rw [Reading.map_path_filter_selected (fun _ _ => Candidate.isRecorded_of_read) hselected
        hentries, ← List.filter_filter]
    have hkept : (units.filter fun c => !c.isBlank).Sublist candidates :=
      List.filter_sublist.trans List.filter_sublist
    have hnodup : ((entries.filter Analysis.isRecorded).map Entry.path).Nodup :=
      hrecorded ▸ (hkept.map Candidate.path).nodup hdistinct
    cases hfound : Analysis.ofEntries (nameOf name candidates) entries extract with
    | error fault =>
      rw [hfound] at hanalysis
      cases hanalysis
    | ok found =>
      rw [hfound] at hanalysis
      obtain rfl : found = analysis := Except.ok.inj hanalysis
      have hids : ids = units.map Candidate.path :=
        (Analysis.units_of_ofEntries hfound).1.trans hunits
      have hkeys : found.dependencies.keys = _ :=
        (Analysis.keys_of_ofEntries hnodup hfound).trans hrecorded
      refine ⟨hids, hkeys, ?_⟩
      rw [hkeys, hids, map_filter_eq_map_iff]
      simp only [Bool.not_eq_true']

/-- An empty file that is no program text, and a picture that is not even read. -/
def tidyCandidates : List Candidate := [
  { path := "lib/MAIN.TS", size := .ok 19, isDirectory := false, text := .ok "import a from './b'" },
  { path := "lib/notes.md", size := .ok 0, isDirectory := false, text := .ok "" },
  { path := "lib/a.png", size := .ok 9, isDirectory := false, text := .error ⟨.system, none⟩ },
  { path := "lib/b.py", size := .ok 1, isDirectory := false, text := .ok "\n" }]

theorem tidyCandidates_records : (tidyCandidates.map Candidate.path).Nodup ∧
    ∃ entries analysis, (read tidyCandidates none 32).2 = .ok entries ∧
      (analyze tidyCandidates none .lexical 32).2 = .ok analysis ∧
      analysis.dependencies.keys = ["lib/MAIN.TS", "lib/b.py"] ∧
      analysis.dependencies.keys = analysis.architecture.map SourceUnit.id := by
  have hdistinct : (tidyCandidates.map Candidate.path).Nodup := by decide
  have hmeasured : (read tidyCandidates none 32).2.toOption.map List.length = some 3 := by
    decide +kernel
  obtain ⟨entries, hread, -⟩ := exists_ok_of_map_toOption hmeasured
  obtain ⟨⟨analysis, hanalysis⟩, hrecords⟩ := records_of_units hdistinct hread none
  obtain ⟨-, hkeys, hall⟩ := hrecords .lexical analysis hanalysis
  refine ⟨hdistinct, entries, analysis, hread, hanalysis, hkeys.trans ?_, hall.2 ?_⟩
  · decide +kernel
  · decide +kernel

theorem empty_unit_unrecorded :
    let candidates : List Candidate := [
      { path := "pkg/__init__.py", size := .ok 0, isDirectory := false, text := .ok "" },
      { path := "pkg/a.py", size := .ok 1, isDirectory := false, text := .ok "x" }]
    (candidates.map Candidate.path).Nodup ∧
    ∃ analysis, (analyze candidates none .lexical 32).2 = .ok analysis ∧
      analysis.architecture.map SourceUnit.id = ["pkg/__init__.py", "pkg/a.py"] ∧
      analysis.dependencies.keys = ["pkg/a.py"] := by
  intro candidates
  have hmeasured : (analyze candidates none .lexical 32).2.toOption.map (fun analysis =>
      (analysis.architecture.map SourceUnit.id, analysis.dependencies.keys)) =
      some (["pkg/__init__.py", "pkg/a.py"], ["pkg/a.py"]) := by decide +kernel
  obtain ⟨analysis, hanalysis, heq⟩ := exists_ok_of_map_toOption hmeasured
  exact ⟨by decide, analysis, hanalysis, Prod.mk.inj heq⟩

end Project

end CodeAtlas
