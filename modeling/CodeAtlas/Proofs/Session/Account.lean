import CodeAtlas.Proofs.Session.Ending

/-! What a listener hears, run by run. Each run has one account to give, which depends on its
candidates and the extractor alone; a listener hears the accounts in the order in which the runs
start, each up to the point where its run was overtaken. -/
namespace CodeAtlas

namespace Reading

variable {r next : Reading} {i : Nat}

theorem finish_eq_some (h : r.finish i = some next) :
    r.done[i]? = some false ∧ next = { r with done := r.done.set i true } := by
  unfold finish underWay at h
  rw [Option.ite_none_right_eq_some, Bool.and_eq_true, beq_iff_eq] at h
  exact ⟨h.1.2, (Option.some.inj h.2).symm⟩

theorem length_done_of_finish (h : r.finish i = some next) : next.done.length = r.done.length := by
  obtain ⟨-, rfl⟩ := finish_eq_some h
  exact List.length_set

theorem doneCount_of_finish (h : r.finish i = some next) : next.doneCount = r.doneCount + 1 := by
  obtain ⟨hi, rfl⟩ := finish_eq_some h
  obtain ⟨hlt, hfalse⟩ := List.getElem?_eq_some_iff.1 hi
  simp [doneCount, List.count_set hlt, hfalse]

theorem doneCount_of_isDone (h : r.isDone = true) : r.doneCount = r.done.length :=
  List.count_eq_length.2 fun b hb => (List.all_eq_true.1 h b hb).symm

theorem finish_of_isDone (h : r.isDone = true) (i : Nat) : r.finish i = none := by
  cases hfinish : r.finish i with
  | none => rfl
  | some next =>
    obtain ⟨hi, -⟩ := finish_eq_some hfinish
    exact absurd (List.all_eq_true.1 h false (List.mem_of_getElem? hi)) Bool.false_ne_true

theorem start_length (candidates : List Candidate) (limit : Nat) :
    (start candidates limit).done.length = (start candidates limit).selected.length :=
  List.length_map _

theorem start_doneCount (candidates : List Candidate) (limit : Nat) :
    (start candidates limit).doneCount = 0 := by
  rw [doneCount, start, List.map_const', List.count_replicate]
  rfl

end Reading

namespace Session

/-- What is heard while `count` of `total` reads finish; `kept` says whether there is an analysis
from before. -/
def readingAccount (kept : Bool) (total count : Nat) : List Snapshot :=
  ⟨.uploading, 0, none, kept⟩ ::
    (List.range count).map fun k => ⟨.uploading, 100 * (k + 1) / total, none, kept⟩

def verdict (kept : Bool) (full : Nat) : Except ProjectError Analysis → Snapshot
  | .error e => ⟨.error, full, some e.told, kept⟩
  | .ok _ => ⟨.success, 100, none, true⟩

/-- What is heard of a run after its reads: nothing but an error if they failed, else that they are
analysed and what came of it. -/
def closing (extract : Extractor) (kept : Bool) (full : Nat)
    (begun : List Candidate × Option String) (read : Except EntryError (List Entry)) :
    List Snapshot :=
  let last := verdict kept full (Project.resultOf begun.1 begun.2 extract read)
  match read with
  | .error _ => [last]
  | .ok _ => [⟨.analyzing, full, none, kept⟩, last]

/-- All that is heard of a run that nothing overtakes. -/
def account (extract : Extractor) (kept : Bool) (begun : List Candidate × Option String) :
    List Snapshot :=
  let selected := begun.1.filter Candidate.isSelected
  readingAccount kept selected.length selected.length ++
    closing extract kept (100 * selected.length / selected.length) begun (Reading.collect selected)

variable {extract : Extractor} {kept : Bool} {begun : List Candidate × Option String}

theorem readingAccount_succ (kept : Bool) (total count : Nat) :
    readingAccount kept total (count + 1) =
      readingAccount kept total count ++ [⟨.uploading, 100 * (count + 1) / total, none, kept⟩] := by
  simp [readingAccount, List.range_succ]

theorem getLast?_readingAccount (kept : Bool) (total count : Nat) :
    (readingAccount kept total count).getLast? =
      some ⟨.uploading, 100 * count / total, none, kept⟩ := by
  cases count with
  | zero => simp [readingAccount]
  | succ count => rw [readingAccount_succ, List.getLast?_concat]

theorem readingAccount_isPrefix (kept : Bool) {total count : Nat} (h : count ≤ total) :
    readingAccount kept total count <+: readingAccount kept total total := by
  obtain ⟨rest, rfl⟩ := Nat.exists_eq_add_of_le h
  simp [readingAccount, List.range_add]

theorem ended_snapshot {s : Session} (herror : s.error = none)
    (result : Except ProjectError Analysis) :
    (s.ended result).snapshot = verdict s.analysis.isSome s.progress result := by
  cases result with
  | error e => rfl
  | ok analysis => simp [ended, snapshot, verdict, herror]

theorem heardOfEnd_eq_closing {s : Session} (herror : s.error = none)
    (begun : List Candidate × Option String) (read : Except EntryError (List Entry)) :
    s.heardOfEnd (s.ended (Project.resultOf begun.1 begun.2 s.extract read)) read =
      closing s.extract s.analysis.isSome s.progress begun read := by
  unfold heardOfEnd closing
  cases read <;> simp only [ended_snapshot herror, herror]

end Session

end CodeAtlas
