import CodeAtlas.Proofs.Session.Overtaken

/-! The end of a run that nothing has overtaken. What it leaves behind and what is heard of it
follow from what its candidates come to; the past of the session only decides whether an analysis
was there before. -/
namespace CodeAtlas

private theorem FaultKind.name_ne_empty (kind : FaultKind) : kind.name ≠ "" := by
  cases kind with
  | other className => exact className.2
  | _ => decide

namespace Fault

/-- What a session says of a fault that ends a run. -/
def told (f : Fault) : String := if f.kind = .analysis then f.text else f.summary

/-- A failure of the analysis itself that carries no text. -/
def IsMute (f : Fault) : Prop := f.kind = .analysis ∧ f.text = ""

theorem summary_ne_empty (f : Fault) : f.summary ≠ "" := by
  unfold summary
  split
  · exact f.kind.name_ne_empty
  · assumption

theorem told_of_foreign {f : Fault} (h : f.kind ≠ .analysis) : f.told = f.summary := if_neg h

theorem told_eq_empty_iff {f : Fault} : f.told = "" ↔ f.IsMute := by
  unfold told IsMute
  split
  · next h => exact (and_iff_right h).symm
  · next h => exact iff_of_false f.summary_ne_empty fun hmute => h hmute.1

end Fault

private theorem ReadFailure.message_ne_empty (f : ReadFailure) : f.message ≠ "" := by
  intro h
  have h := String.append_eq_empty_iff.1 h
  exact absurd (String.append_eq_empty_iff.1 (String.append_eq_empty_iff.1 h.1).1).1 (by decide)

namespace ProjectError

/-- What a session says of the error that ends a run. -/
def told : ProjectError → String
  | raised fault => fault.told
  | e => e.message

theorem told_eq_empty_iff {e : ProjectError} :
    e.told = "" ↔ ∃ fault, e = raised fault ∧ fault.IsMute := by
  cases e with
  | raised fault => simp [told, Fault.told_eq_empty_iff]
  | read failure => exact iff_of_false failure.message_ne_empty fun ⟨_, h, _⟩ => nomatch h
  | negativeLimit => exact iff_of_false (by decide) fun ⟨_, h, _⟩ => nomatch h

end ProjectError

namespace Session

def ended (s : Session) : Except ProjectError Analysis → Session
  | .ok analysis => { s with status := .success, progress := 100, analysis := some analysis }
  | .error e => { s with status := .error, error := some e.told }

@[simp] theorem ended_extract (s : Session) (result : Except ProjectError Analysis) :
    (s.ended result).extract = s.extract := by
  cases result <;> rfl

/-- What is heard of the end of the newest run: if its candidates could be read, that they are
analysed, and then what they came to. -/
def heardOfEnd (s : Session) (last : Session) : Except EntryError (List Entry) → List Snapshot
  | .error _ => [last.snapshot]
  | .ok _ => [⟨.analyzing, s.progress, s.error, s.analysis.isSome⟩, last.snapshot]

variable {s : Session} {r : Run} {run : Nat}

private theorem announceFor_of_current {generation : Nat} (h : s.isCurrent generation = true)
    (status : Status) (progress : Option Nat) :
    s.announceFor generation status progress = s.announce status progress := if_pos h

theorem failFor_of_current {generation : Nat} (h : s.isCurrent generation = true)
    (message : String) :
    s.failFor generation message = { s with error := some message }.announce .error none := if_pos h

theorem raiseFor_of_current {generation : Nat} (h : s.isCurrent generation = true) (fault : Fault) :
    (s.raiseFor generation fault).1 =
      (s.ended (.error (.raised fault)), [(s.ended (.error (.raised fault))).snapshot]) := by
  unfold raiseFor ended ProjectError.told Fault.told
  simp only [failFor_of_current h]
  split <;> rfl

private theorem settleFor_of_current {generation : Nat} (h : s.isCurrent generation = true)
    (analysis : Except Fault Analysis) :
    (s.settleFor generation analysis).1 =
      (s.ended (analysis.mapError .raised), [(s.ended (analysis.mapError .raised)).snapshot]) := by
  unfold settleFor
  cases analysis with
  | error fault => exact raiseFor_of_current h fault
  | ok analysis =>
    simp only [h]
    rfl

private theorem endRun_of_current (h : s.isCurrent r.generation = true)
    (result : Except EntryError (List Entry)) :
    let last := s.ended (Project.resultOf r.candidates r.name s.extract result)
    (s.endRun r result).1 = (last, s.heardOfEnd last result) := by
  intro last
  cases result with
  | error e =>
    cases e with
    | unread failure => exact failFor_of_current h failure.message
    | unfit fault => exact raiseFor_of_current h fault
  | ok entries =>
    have hstart := announceFor_of_current h .analyzing none
    have hcurrent : (s.announceFor r.generation .analyzing none).1.isCurrent r.generation = true :=
      (isCurrent_congr (announceFor_terms ..) _).trans h
    have hend := settleFor_of_current hcurrent
      (Analysis.ofEntries (Project.nameOf r.name r.candidates) entries s.extract)
    have hlast : (s.announceFor r.generation .analyzing none).1.ended
        ((Analysis.ofEntries (Project.nameOf r.name r.candidates) entries s.extract).mapError
          .raised) = last := by
      rw [hstart]
      change _ = s.ended ((Analysis.ofEntries _ entries s.extract).mapError .raised)
      cases Analysis.ofEntries (Project.nameOf r.name r.candidates) entries s.extract <;> rfl
    rw [hlast] at hend
    unfold endRun analyzeRun
    simp only [hend]
    rw [hstart]
    rfl

theorem concludeRun_of_current (hr : s.runs[run]? = some r) (houtcome : r.outcome = none)
    {read : Except EntryError (List Entry)} (hread : r.reading.result? = some read)
    (h : s.isCurrent r.generation = true) :
    let result := Project.resultOf r.candidates r.name s.extract read
    s.concludeRun run =
      ((s.ended result).withRuns (s.runs.modify run fun before =>
        { before with outcome := some (.ofResult true result) }),
        s.heardOfEnd (s.ended result) read) := by
  intro result
  rw [concludeRun_eq hr houtcome hread, endRun_of_current h, endRun_outcome, h]

theorem finishRead_of_current (hr : s.runs[run]? = some r)
    (hcurrent : s.isCurrent r.generation = true) {entry : Nat} {reading : Reading}
    (hfinish : r.reading.finish entry = some reading) :
    s.finishRead run entry = (s.withRuns (s.runs.modify run fun r => { r with reading })).announce
      .uploading (some reading.progress) := by
  rw [finishRead_eq entry hr, hfinish]
  exact if_pos hcurrent

theorem step_cases (s : Session) (event : Event) :
    event = .reset ∨ ((s.step event).1.face = s.face ∧ (s.step event).2 = []) ∨
    (∃ (t : Session) (progress : Nat), s.step event = t.announce .uploading (some progress) ∧
      t.analysis = s.analysis) ∨
    ∃ result read, (s.step event).1.face = (s.ended result).face ∧
      (s.step event).2 = s.heardOfEnd (s.ended result) read := by
  cases hevent : event.run? with
  | none =>
    cases event with
    | start candidates name => exact .inr (.inr (.inl ⟨_, 0, rfl, rfl⟩))
    | reset => exact .inl rfl
    | finishRead run entry => cases hevent
    | conclude run => cases hevent
  | some run =>
    right
    cases hr : s.runs[run]? with
    | none =>
      rw [step_of_no_run hevent hr]
      exact .inl ⟨rfl, rfl⟩
    | some r =>
      by_cases hgeneration : r.generation = s.generation
      · have hcurrent : s.isCurrent r.generation = true := beq_iff_eq.2 hgeneration.symm
        cases event with
        | start candidates name => cases hevent
        | reset => cases hevent
        | finishRead run' entry =>
          obtain rfl : run' = run := Option.some.inj hevent
          cases hfinish : r.reading.finish entry with
          | none =>
            rw [step, finishRead_eq entry hr, hfinish]
            exact .inl ⟨rfl, rfl⟩
          | some reading =>
            rw [step, finishRead_of_current hr hcurrent hfinish]
            exact .inr (.inl ⟨_, _, rfl, rfl⟩)
        | conclude run' =>
          obtain rfl : run' = run := Option.some.inj hevent
          rcases r.ready_or_waits with ⟨houtcome, read, hread⟩ | hwait
          · rw [step, concludeRun_of_current hr houtcome hread hcurrent]
            exact .inr (.inr ⟨_, read, rfl, rfl⟩)
          · rw [step, concludeRun_of_waits hr hwait]
            exact .inl ⟨rfl, rfl⟩
      · exact .inl (step_of_overtaken hevent hr hgeneration)

end Session

end CodeAtlas
