import CodeAtlas.Proofs.Project
import CodeAtlas.Session

/-! One event and what it can touch. A session keeps its runs apart from what it shows: an event
that speaks of a run reads that run and nothing else of the others, puts its successor in the same
place, and shows nothing at all once the run has been overtaken. -/
namespace CodeAtlas

/-- How a run ends whose candidates come to a result. Only the newest run may produce an analysis;
a failure of the analysis itself is never passed on. -/
def Session.Outcome.ofResult (current : Bool) : Except ProjectError Analysis → Session.Outcome
  | .ok analysis => if current then .produced analysis else .nothing
  | .error (.raised fault) => if fault.kind = .analysis then .nothing else .raised fault
  | .error _ => .nothing

namespace Session

def withRuns (s : Session) (runs : List Run) : Session := { s with runs }

/-- What a session shows; its runs are left out. -/
def face (s : Session) : Session := s.withRuns []

@[simp] theorem withRuns_runs (s : Session) (runs : List Run) : (s.withRuns runs).runs = runs := rfl
@[simp] theorem withRuns_self (s : Session) : s.withRuns s.runs = s := rfl
@[simp] theorem withRuns_withRuns (s : Session) (runs more : List Run) :
    (s.withRuns runs).withRuns more = s.withRuns more := rfl
@[simp] theorem face_withRuns (s : Session) (runs : List Run) :
    (s.withRuns runs).face = s.face := rfl

theorem withRuns_of_face_eq {s t : Session} (h : s.face = t.face) : s.withRuns t.runs = t := by
  have hs := congrArg (fun u => u.withRuns t.runs) h
  simpa only [face, withRuns_withRuns, withRuns_self] using hs

private theorem modifyRun_eq (s : Session) (run : Nat) (f : Run → Run) :
    s.modifyRun run f = s.withRuns (s.runs.modify run f) := rfl

theorem announceFor_withRuns (s : Session) (runs : List Run) (generation : Nat) (status : Status)
    (progress : Option Nat) :
    (s.withRuns runs).announceFor generation status progress =
      ((s.announceFor generation status progress).1.withRuns runs,
        (s.announceFor generation status progress).2) := by
  unfold announceFor
  change (if s.isCurrent generation then _ else _) = _
  split <;> rfl

theorem failFor_withRuns (s : Session) (runs : List Run) (generation : Nat) (message : String) :
    (s.withRuns runs).failFor generation message =
      ((s.failFor generation message).1.withRuns runs, (s.failFor generation message).2) := by
  unfold failFor
  change (if s.isCurrent generation then _ else _) = _
  split <;> rfl

theorem raiseFor_withRuns (s : Session) (runs : List Run) (generation : Nat) (fault : Fault) :
    (s.withRuns runs).raiseFor generation fault =
      (((s.raiseFor generation fault).1.1.withRuns runs, (s.raiseFor generation fault).1.2),
        (s.raiseFor generation fault).2) := by
  unfold raiseFor
  simp only [failFor_withRuns]
  split <;> rfl

private theorem settleFor_withRuns (s : Session) (runs : List Run) (generation : Nat)
    (analysis : Except Fault Analysis) :
    (s.withRuns runs).settleFor generation analysis =
      (((s.settleFor generation analysis).1.1.withRuns runs, (s.settleFor generation analysis).1.2),
        (s.settleFor generation analysis).2) := by
  unfold settleFor
  cases analysis with
  | error fault => exact raiseFor_withRuns ..
  | ok analysis =>
    change (if s.isCurrent generation then _ else _) = _
    simp only
    split <;> rfl

private theorem analyzeRun_withRuns (s : Session) (runs : List Run) (r : Run)
    (entries : List Entry) : (s.withRuns runs).analyzeRun r entries =
      (((s.analyzeRun r entries).1.1.withRuns runs, (s.analyzeRun r entries).1.2),
        (s.analyzeRun r entries).2) := by
  unfold analyzeRun
  simp only [announceFor_withRuns, settleFor_withRuns]
  rfl

theorem endRun_withRuns (s : Session) (runs : List Run) (r : Run)
    (result : Except EntryError (List Entry)) :
    (s.withRuns runs).endRun r result =
      (((s.endRun r result).1.1.withRuns runs, (s.endRun r result).1.2),
        (s.endRun r result).2) := by
  unfold endRun
  split
  · simp only [failFor_withRuns]
  · exact raiseFor_withRuns ..
  · exact analyzeRun_withRuns ..

private theorem endRun_runs (s : Session) (r : Run) (result : Except EntryError (List Entry)) :
    (s.endRun r result).1.1.runs = s.runs := by
  have h := congrArg (fun ended => ended.1.1.runs) (endRun_withRuns s s.runs r result)
  simpa only [withRuns_self, withRuns_runs] using h

theorem announceFor_of_ne {s : Session} {generation : Nat} (h : generation ≠ s.generation)
    (status : Status) (progress : Option Nat) :
    s.announceFor generation status progress = (s, []) := by
  unfold announceFor isCurrent
  rw [if_neg (by simpa using h.symm)]

theorem failFor_of_ne {s : Session} {generation : Nat} (h : generation ≠ s.generation)
    (message : String) : s.failFor generation message = (s, []) := by
  unfold failFor isCurrent
  rw [if_neg (by simpa using h.symm)]

theorem endRun_of_ne {s : Session} {r : Run} (h : r.generation ≠ s.generation)
    (result : Except EntryError (List Entry)) : (s.endRun r result).1 = (s, []) := by
  have hcurrent : s.isCurrent r.generation = false := by simpa [isCurrent] using h.symm
  cases result with
  | error e =>
    cases e with
    | unread failure => exact failFor_of_ne h _
    | unfit fault =>
      simp only [endRun, raiseFor, failFor_of_ne h]
      split <;> rfl
  | ok entries =>
    simp only [endRun, analyzeRun, announceFor_of_ne h]
    cases Analysis.ofEntries (Project.nameOf r.name r.candidates) entries s.extract with
    | error fault =>
      simp only [settleFor, raiseFor, failFor_of_ne h]
      split <;> rfl
    | ok analysis => simp [settleFor, hcurrent]

def terms (s : Session) : Extractor × Nat × Nat := (s.extract, s.readLimit, s.generation)

theorem announceFor_terms (s : Session) (generation : Nat) (status : Status)
    (progress : Option Nat) : (s.announceFor generation status progress).1.terms = s.terms := by
  unfold announceFor
  split <;> rfl

theorem failFor_terms (s : Session) (generation : Nat) (message : String) :
    (s.failFor generation message).1.terms = s.terms := by
  unfold failFor
  split <;> rfl

theorem raiseFor_terms (s : Session) (generation : Nat) (fault : Fault) :
    (s.raiseFor generation fault).1.1.terms = s.terms := by
  unfold raiseFor
  split <;> exact failFor_terms ..

private theorem settleFor_terms (s : Session) (generation : Nat)
    (analysis : Except Fault Analysis) : (s.settleFor generation analysis).1.1.terms = s.terms := by
  unfold settleFor
  split
  · exact raiseFor_terms ..
  · split <;> rfl

theorem endRun_terms (s : Session) (r : Run) (result : Except EntryError (List Entry)) :
    (s.endRun r result).1.1.terms = s.terms := by
  unfold endRun
  split
  · exact failFor_terms ..
  · exact raiseFor_terms ..
  · exact (settleFor_terms ..).trans (announceFor_terms ..)

def Outcome.analysis? : Outcome → Option Analysis
  | .produced analysis => some analysis
  | _ => none

theorem raiseFor_outcome (s : Session) (generation : Nat) (fault : Fault) (current : Bool) :
    (s.raiseFor generation fault).2 = Outcome.ofResult current (.error (.raised fault)) := by
  unfold raiseFor Outcome.ofResult
  dsimp only
  split <;> rfl

private theorem settleFor_outcome (s : Session) (generation : Nat)
    (analysis : Except Fault Analysis) : (s.settleFor generation analysis).2 =
      Outcome.ofResult (s.isCurrent generation) (analysis.mapError .raised) := by
  unfold settleFor
  cases analysis with
  | error fault => exact raiseFor_outcome ..
  | ok analysis =>
    simp only [mapError_ok, Outcome.ofResult]
    split <;> rfl

theorem isCurrent_congr {s t : Session} (h : s.terms = t.terms) (generation : Nat) :
    s.isCurrent generation = t.isCurrent generation := by
  have hgeneration : s.generation = t.generation := congrArg (fun terms => terms.2.2) h
  unfold isCurrent
  rw [hgeneration]

theorem endRun_outcome (s : Session) (r : Run) (result : Except EntryError (List Entry)) :
    (s.endRun r result).2 =
      Outcome.ofResult (s.isCurrent r.generation)
        (Project.resultOf r.candidates r.name s.extract result) := by
  cases result with
  | error e =>
    cases e with
    | unread failure => rfl
    | unfit fault => exact raiseFor_outcome ..
  | ok entries =>
    change ((s.announceFor r.generation .analyzing none).1.settleFor r.generation _).2 = _
    rw [settleFor_outcome, isCurrent_congr (announceFor_terms ..)]
    rfl

theorem announceFor_analysis (s : Session) (generation : Nat) (status : Status)
    (progress : Option Nat) :
    (s.announceFor generation status progress).1.analysis = s.analysis := by
  unfold announceFor
  split <;> rfl

theorem failFor_analysis (s : Session) (generation : Nat) (message : String) :
    (s.failFor generation message).1.analysis = s.analysis := by
  unfold failFor
  split <;> rfl

theorem raiseFor_analysis (s : Session) (generation : Nat) (fault : Fault) :
    (s.raiseFor generation fault).1.1.analysis =
      (s.raiseFor generation fault).2.analysis?.or s.analysis := by
  unfold raiseFor
  split <;> exact failFor_analysis ..

theorem endRun_analysis (s : Session) (r : Run) (result : Except EntryError (List Entry)) :
    (s.endRun r result).1.1.analysis = (s.endRun r result).2.analysis?.or s.analysis := by
  cases result with
  | error e =>
    cases e with
    | unread failure => exact failFor_analysis ..
    | unfit fault => exact raiseFor_analysis ..
  | ok entries =>
    unfold endRun analyzeRun
    dsimp only
    rw [← announceFor_analysis s r.generation .analyzing none]
    generalize (s.announceFor r.generation .analyzing none).1 = t
    cases Analysis.ofEntries (Project.nameOf r.name r.candidates) entries s.extract with
    | error fault => exact raiseFor_analysis ..
    | ok analysis =>
      unfold settleFor
      dsimp only
      split <;> rfl

/-- The run that an event takes further. -/
def Event.run? : Event → Option Nat
  | .finishRead run _ => some run
  | .conclude run => some run
  | .start .. => none
  | .reset => none

/-- What stays with a run from its start to its end. -/
structure Run.Continues (before after : Run) : Prop where
  generation : after.generation = before.generation
  candidates : after.candidates = before.candidates
  name : after.name = before.name
  selected : after.reading.selected = before.reading.selected

theorem Run.Continues.refl (r : Run) : r.Continues r := ⟨rfl, rfl, rfl, rfl⟩

theorem Run.ready_or_waits (r : Run) :
    (r.outcome = none ∧ ∃ result, r.reading.result? = some result) ∨
      (r.outcome ≠ none ∨ r.reading.result? = none) := by
  cases houtcome : r.outcome with
  | some outcome => exact .inr (.inl (by simp))
  | none =>
    cases hresult : r.reading.result? with
    | none => exact .inr (.inr rfl)
    | some result => exact .inl ⟨rfl, result, rfl⟩

theorem finishRead_eq {s : Session} {run : Nat} {r : Run} (entry : Nat)
    (hr : s.runs[run]? = some r) :
    s.finishRead run entry =
      match r.reading.finish entry with
      | none => (s, [])
      | some reading =>
        (s.withRuns (s.runs.modify run fun r => { r with reading })).announceFor r.generation
          .uploading (some reading.progress) := by
  unfold finishRead
  rw [hr]
  rfl

theorem concludeRun_eq {s : Session} {run : Nat} {r : Run} {result : Except EntryError (List Entry)}
    (hr : s.runs[run]? = some r) (houtcome : r.outcome = none)
    (hresult : r.reading.result? = some result) :
    s.concludeRun run =
      ((s.endRun r result).1.1.withRuns
        (s.runs.modify run fun before => { before with outcome := some (s.endRun r result).2 }),
        (s.endRun r result).1.2) := by
  unfold concludeRun
  rw [hr]
  simp only [houtcome, hresult, modifyRun_eq, endRun_runs]

theorem concludeRun_of_waits {s : Session} {run : Nat} {r : Run} (hr : s.runs[run]? = some r)
    (h : r.outcome ≠ none ∨ r.reading.result? = none) : s.concludeRun run = (s, []) := by
  unfold concludeRun
  rw [hr]
  dsimp only
  split
  · next hn hs => simp_all
  · rfl

theorem step_of_run {s : Session} {event : Event} {run : Nat} {r : Run}
    (hevent : event.run? = some run) (hr : s.runs[run]? = some r) :
    ∃ f : Run → Run, r.Continues (f r) ∧ ∀ runs : List Run, runs[run]? = some r →
      (s.withRuns runs).step event =
        ((s.step event).1.withRuns (runs.modify run f), (s.step event).2) := by
  cases event with
  | start candidates name => simp [Event.run?] at hevent
  | reset => simp [Event.run?] at hevent
  | finishRead run' entry =>
    obtain rfl : run' = run := Option.some.inj hevent
    cases hfinish : r.reading.finish entry with
    | none =>
      refine ⟨id, .refl r, fun runs hruns => ?_⟩
      simp only [step, finishRead_eq entry hr,
        finishRead_eq (s := s.withRuns runs) entry hruns, hfinish, List.modify_id]
    | some reading =>
      refine ⟨fun r => { r with reading }, ⟨rfl, rfl, rfl, Reading.selected_of_finish hfinish⟩,
        fun runs hruns => ?_⟩
      simp only [step, finishRead_eq entry hr,
        finishRead_eq (s := s.withRuns runs) entry hruns, hfinish, withRuns_withRuns,
        announceFor_withRuns, withRuns_runs]
  | conclude run' =>
    obtain rfl : run' = run := Option.some.inj hevent
    rcases r.ready_or_waits with ⟨houtcome, result, hresult⟩ | hwait
    · refine ⟨fun before => { before with outcome := some (s.endRun r result).2 },
        ⟨rfl, rfl, rfl, rfl⟩, fun runs hruns => ?_⟩
      simp only [step, concludeRun_eq hr houtcome hresult,
        concludeRun_eq (s := s.withRuns runs) hruns houtcome hresult, endRun_withRuns,
        withRuns_withRuns, withRuns_runs]
    · refine ⟨id, .refl r, fun runs hruns => ?_⟩
      simp only [step, concludeRun_of_waits hr hwait,
        concludeRun_of_waits (s := s.withRuns runs) hruns hwait, List.modify_id]

theorem step_of_no_run {s : Session} {event : Event} {run : Nat}
    (hevent : event.run? = some run) (hr : s.runs[run]? = none) : s.step event = (s, []) := by
  cases event with
  | start candidates name => simp [Event.run?] at hevent
  | reset => simp [Event.run?] at hevent
  | finishRead run' entry =>
    obtain rfl : run' = run := Option.some.inj hevent
    simp only [step, finishRead, hr]
  | conclude run' =>
    obtain rfl : run' = run := Option.some.inj hevent
    simp only [step, concludeRun, hr]

end Session

end CodeAtlas
