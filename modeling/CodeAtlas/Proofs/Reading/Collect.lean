import CodeAtlas.Reading

/-! What a list of candidates comes to: one entry for each, or the error of the first that has
one. -/
namespace CodeAtlas

private theorem Candidate.read_of_isDirectory {c : Candidate} (h : c.isDirectory = true) :
    c.read = .ok (c.toEntry 0 none) := by
  unfold read
  rw [if_pos h]

theorem Candidate.isFile_of_read {c : Candidate} {entry : Entry} (h : c.read = .ok entry) :
    entry.isFile = !c.isDirectory := by
  rw [read] at h
  cases hdirectory : c.isDirectory with
  | true =>
    rw [hdirectory, if_pos rfl] at h
    cases h
    simp [Entry.isFile, toEntry, hdirectory]
  | false =>
    rw [hdirectory, if_neg Bool.false_ne_true] at h
    split at h
    · cases h
    · cases h
    · cases h
      simp [Entry.isFile, toEntry, hdirectory]

theorem Candidate.read_eq_unread_iff {c : Candidate} {failure : ReadFailure} :
    c.read = .error (.unread failure) ↔
      c.isDirectory = false ∧ ∃ fault, c.text = .error fault ∧ failure = ⟨c.path, fault.text⟩ := by
  unfold read
  cases c.isDirectory with
  | true => simp
  | false =>
    cases c.text with
    | error fault => simp [eq_comm]
    | ok content => cases c.size <;> simp

theorem Candidate.read_eq_unfit_iff {c : Candidate} {fault : Fault} :
    c.read = .error (.unfit fault) ↔
      c.isDirectory = false ∧ (∃ content, c.text = .ok content) ∧ c.size = .error fault := by
  unfold read
  cases c.isDirectory with
  | true => simp
  | false =>
    cases c.text with
    | error fault => simp
    | ok content => cases c.size <;> simp

namespace Reading

theorem collect_eq_ok_iff {candidates : List Candidate} {entries : List Entry} :
    collect candidates = .ok entries ↔ candidates.map Candidate.read = entries.map .ok := by
  induction candidates generalizing entries with
  | nil => cases entries <;> simp [collect]
  | cons c rest ih =>
    cases hc : c.read with
    | error e => cases entries <;> simp [collect, hc]
    | ok entry =>
      cases entries with
      | nil => cases hrest : collect rest <;> simp [collect, hc, hrest, Except.map]
      | cons first entries =>
        have hrest := @ih entries
        cases hcollect : collect rest with
        | error e => simp_all [collect, Except.map]
        | ok found => simp_all [collect, Except.map]

theorem collect_eq_error_iff {candidates : List Candidate} {e : EntryError} :
    collect candidates = .error e ↔
      ∃ before c after, candidates = before ++ c :: after ∧
        (∀ b ∈ before, ∃ entry, b.read = .ok entry) ∧ c.read = .error e := by
  constructor
  · induction candidates with
    | nil => simp [collect]
    | cons c rest ih =>
      intro h
      cases hc : c.read with
      | error e' =>
        simp only [collect, hc, Except.error.injEq] at h
        exact ⟨[], c, rest, rfl, by simp, h ▸ hc⟩
      | ok entry =>
        cases hrest : collect rest with
        | ok found => simp [collect, hc, hrest, Except.map] at h
        | error e' =>
          simp only [collect, hc, hrest, Except.map, Except.error.injEq] at h
          obtain ⟨before, failed, after, rfl, hbefore, hfailed⟩ := ih (by rw [hrest, h])
          refine ⟨c :: before, failed, after, rfl, fun b hb => ?_, hfailed⟩
          rcases List.mem_cons.1 hb with rfl | hb
          · exact ⟨entry, hc⟩
          · exact hbefore b hb
  · rintro ⟨before, c, after, rfl, hbefore, hc⟩
    induction before with
    | nil => simp [collect, hc]
    | cons b before ih =>
      obtain ⟨entry, hb⟩ := hbefore b (by simp)
      have hrest := ih fun b' hb' => hbefore b' (by simp [hb'])
      simp [collect, hb, hrest, Except.map]

/-- What the reads of some candidates have to come to. Only the place in the list decides which of
several failures counts. -/
structure Settles (candidates : List Candidate) (result : Except EntryError (List Entry)) :
    Prop where
  ok_iff : ∀ entries, result = .ok entries ↔ candidates.map Candidate.read = entries.map .ok
  ok_of_readable : (∀ c ∈ candidates, c.isDirectory = false →
      ∃ content size, c.text = .ok content ∧ c.size = .ok size) → ∃ entries, result = .ok entries
  unread_iff : ∀ failure, result = .error (.unread failure) ↔
    ∃ before c after, candidates = before ++ c :: after ∧
      (∀ b ∈ before, ∃ entry, b.read = .ok entry) ∧
      c.isDirectory = false ∧ ∃ fault, c.text = .error fault ∧ failure = ⟨c.path, fault.text⟩
  unfit_iff : ∀ fault, result = .error (.unfit fault) ↔
    ∃ before c after, candidates = before ++ c :: after ∧
      (∀ b ∈ before, ∃ entry, b.read = .ok entry) ∧
      c.isDirectory = false ∧ (∃ content, c.text = .ok content) ∧ c.size = .error fault

theorem settles_collect (candidates : List Candidate) :
    Settles candidates (collect candidates) where
  ok_iff := fun entries => collect_eq_ok_iff
  ok_of_readable := fun h => by
    cases hcollect : collect candidates with
    | ok entries => exact ⟨entries, rfl⟩
    | error e =>
      obtain ⟨before, c, after, rfl, -, hc⟩ := collect_eq_error_iff.1 hcollect
      cases hdirectory : c.isDirectory with
      | true =>
        rw [Candidate.read_of_isDirectory hdirectory] at hc
        cases hc
      | false =>
        obtain ⟨content, size, htext, hsize⟩ :=
          h c (List.mem_append_right _ List.mem_cons_self) hdirectory
        simp [Candidate.read, hdirectory, htext, hsize] at hc
  unread_iff := fun failure => by
    rw [collect_eq_error_iff]
    simp only [Candidate.read_eq_unread_iff]
  unfit_iff := fun fault => by
    rw [collect_eq_error_iff]
    simp only [Candidate.read_eq_unfit_iff]

theorem mem_of_collect_eq_error {candidates : List Candidate} {e : EntryError}
    (h : collect candidates = .error e) : ∃ c ∈ candidates, c.read = .error e := by
  obtain ⟨before, c, after, rfl, -, hc⟩ := collect_eq_error_iff.1 h
  exact ⟨c, by simp, hc⟩

theorem result?_eq_some_iff {r : Reading} {result : Except EntryError (List Entry)} :
    r.result? = some result ↔ r.isDone = true ∧ collect r.selected = result := by
  unfold result?
  cases r.isDone <;> simp

end Reading

end CodeAtlas
