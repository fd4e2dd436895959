import CodeAtlas.Project
import CodeAtlas.Proofs.Reading.Collect

/-! What the candidates of a project come to, apart from what is heard while they are read, and
whose fault it is if they come to nothing. -/
namespace CodeAtlas

private theorem Analysis.recordsFrom_error {extract : Extractor} {records : Table Linkage}
    {entries : List Entry} {fault : Fault}
    (h : recordsFrom extract records entries = .error fault) :
    ∃ e ∈ entries, extract (e.content.getD "") e.path = .error fault := by
  induction entries generalizing records with
  | nil => simp [recordsFrom] at h
  | cons e rest ih =>
    have later : (∃ e ∈ rest, extract (e.content.getD "") e.path = .error fault) →
        ∃ e' ∈ e :: rest, extract (e'.content.getD "") e'.path = .error fault := by
      rintro ⟨e', he', hextract⟩
      exact ⟨e', List.mem_cons_of_mem _ he', hextract⟩
    simp only [recordsFrom] at h
    split at h
    · split at h
      · exact later (ih h)
      · next hextract => exact ⟨e, by simp, (Except.error.inj h) ▸ hextract⟩
    · exact later (ih h)

private theorem Analysis.recordsFrom_of_failure {extract : Extractor} {records : Table Linkage}
    {done rest : List Entry} {e : Entry} {fault : Fault}
    (hdone : ∀ d ∈ done, isRecorded d = true →
      ∃ record, extract (d.content.getD "") d.path = .ok record)
    (hrecorded : isRecorded e = true)
    (hextract : extract (e.content.getD "") e.path = .error fault) :
    recordsFrom extract records (done ++ e :: rest) = .error fault := by
  induction done generalizing records with
  | nil => simp [recordsFrom, hrecorded, hextract]
  | cons d done ih =>
    have hlater (records : Table Linkage) :
        recordsFrom extract records (done ++ e :: rest) = .error fault :=
      ih fun d' hd' => hdone d' (List.mem_cons_of_mem _ hd')
    rw [List.cons_append, recordsFrom]
    split
    · next hd =>
      obtain ⟨record, hrecord⟩ := hdone d List.mem_cons_self hd
      simp only [hrecord, hlater]
    · exact hlater records

private theorem Analysis.ofEntries_error {name : String} {entries : List Entry}
    {extract : Extractor} {fault : Fault} (h : ofEntries name entries extract = .error fault) :
    ∃ e ∈ entries, extract (e.content.getD "") e.path = .error fault := by
  unfold ofEntries at h
  split at h
  · next hrecords => exact recordsFrom_error ((Except.error.inj h) ▸ hrecords)
  · simp at h

@[simp] theorem mapError_ok {α ε ε' : Type} (f : ε → ε') (a : α) :
    (Except.ok a).mapError f = .ok a := rfl

@[simp] theorem mapError_error {α ε ε' : Type} (f : ε → ε') (e : ε) :
    (Except.error e : Except ε α).mapError f = .error (f e) := rfl

theorem exists_ok_of_map_toOption {α β ε : Type} {f : α → β} {b : β} {result : Except ε α}
    (h : result.toOption.map f = some b) : ∃ a, result = .ok a ∧ f a = b := by
  cases result with
  | error e => cases h
  | ok a => exact ⟨a, rfl, Option.some.inj h⟩

namespace Project

def resultOf (candidates : List Candidate) (name : Option String) (extract : Extractor) :
    Except EntryError (List Entry) → Except ProjectError Analysis
  | .error e => .error (.ofEntryError e)
  | .ok entries => (Analysis.ofEntries (nameOf name candidates) entries extract).mapError .raised

/-- What the candidates of a project come to, in whatever order they are read. -/
def result (candidates : List Candidate) (name : Option String) (extract : Extractor) :
    Except ProjectError Analysis :=
  resultOf candidates name extract (Reading.collect (candidates.filter Candidate.isSelected))

theorem analyze_snd (candidates : List Candidate) (name : Option String) (extract : Extractor)
    (limit : Nat) :
    (analyze candidates name extract limit).2 = result candidates name extract := by
  have hlimit : limitOf none (limit : Int) = .ok limit := by
    unfold limitOf
    simp only [Int.toNat_natCast, ite_eq_right_iff, reduceCtorEq, imp_false]
    omega
  unfold analyze read result resultOf
  simp only [hlimit]
  cases Reading.collect (candidates.filter Candidate.isSelected) <;> rfl

theorem result_eq_ok_iff {candidates : List Candidate} {name : Option String}
    {extract : Extractor} {analysis : Analysis} :
    result candidates name extract = .ok analysis ↔
      ∃ entries, (candidates.filter Candidate.isSelected).map Candidate.read = entries.map .ok ∧
        Analysis.ofEntries (nameOf name candidates) entries extract = .ok analysis := by
  simp only [← Reading.collect_eq_ok_iff]
  unfold result resultOf
  cases Reading.collect (candidates.filter Candidate.isSelected) with
  | error e => simp
  | ok entries =>
    simp only [Except.ok.injEq, exists_eq_left']
    cases Analysis.ofEntries (nameOf name candidates) entries extract <;> simp

theorem result_of_unread {candidates readable rest : List Candidate} {c : Candidate}
    {name : Option String} {extract : Extractor} {fault : Fault}
    (hselected : candidates.filter Candidate.isSelected = readable ++ c :: rest)
    (hreadable : ∀ b ∈ readable, ∃ entry, b.read = .ok entry) (hfile : c.isDirectory = false)
    (htext : c.text = .error fault) :
    result candidates name extract = .error (.read ⟨c.path, fault.text⟩) := by
  have hread := Candidate.read_eq_unread_iff.2 ⟨hfile, fault, htext, rfl⟩
  rw [result, Reading.collect_eq_error_iff.2 ⟨readable, c, rest, hselected, hreadable, hread⟩]
  rfl

theorem result_of_extraction {candidates : List Candidate} {name : Option String}
    {extract : Extractor} {done rest : List Entry} {e : Entry} {fault : Fault}
    (hread : (candidates.filter Candidate.isSelected).map Candidate.read =
      (done ++ e :: rest).map .ok)
    (hdone : ∀ d ∈ done, Analysis.isRecorded d = true →
      ∃ record, extract (d.content.getD "") d.path = .ok record)
    (hrecorded : Analysis.isRecorded e = true)
    (hextract : extract (e.content.getD "") e.path = .error fault) :
    result candidates name extract = .error (.raised fault) := by
  rw [result, Reading.collect_eq_ok_iff.2 hread, resultOf, Analysis.ofEntries,
    Analysis.recordsFrom_of_failure hdone hrecorded hextract]
  rfl

theorem result_eq_raised {candidates : List Candidate} {name : Option String}
    {extract : Extractor} {fault : Fault}
    (h : result candidates name extract = .error (.raised fault)) :
    ∃ c ∈ candidates, c.size = .error fault ∨
      ∃ e, c.read = .ok e ∧ extract (e.content.getD "") e.path = .error fault := by
  unfold result at h
  cases hcollect : Reading.collect (candidates.filter Candidate.isSelected) with
  | error e =>
    rw [hcollect] at h
    cases e with
    | unread failure => simp [resultOf, ProjectError.ofEntryError] at h
    | unfit own =>
      obtain rfl : own = fault := by simpa [resultOf, ProjectError.ofEntryError] using h
      obtain ⟨c, hc, hread⟩ := Reading.mem_of_collect_eq_error hcollect
      exact ⟨c, (List.mem_filter.1 hc).1, .inl (Candidate.read_eq_unfit_iff.1 hread).2.2⟩
  | ok entries =>
    rw [hcollect] at h
    cases hentries : Analysis.ofEntries (nameOf name candidates) entries extract with
    | ok analysis => simp [resultOf, hentries] at h
    | error own =>
      obtain rfl : own = fault := by simpa [resultOf, hentries] using h
      obtain ⟨e, he, hextract⟩ := Analysis.ofEntries_error hentries
      have hread : Except.ok e ∈ (candidates.filter Candidate.isSelected).map Candidate.read := by
        rw [Reading.collect_eq_ok_iff.1 hcollect]
        exact List.mem_map_of_mem he
      obtain ⟨c, hc, hread⟩ := List.mem_map.1 hread
      exact ⟨c, (List.mem_filter.1 hc).1, .inr ⟨e, hread, hextract⟩⟩

end Project

end CodeAtlas
