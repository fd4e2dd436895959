import CodeAtlas.Project
import CodeAtlas.Session.Document

/-!
A session holds one analysis at a time. Runs may overlap: a run that was overtaken by a newer one or
by a reset goes on to its end without being heard. What happens to a session is a list of events,
in any order that reading allows.
-/
namespace CodeAtlas

namespace Session

inductive Outcome where
  | produced (analysis : Analysis)
  | nothing
  | raised (fault : Fault)

structure Run where
  generation : Nat
  candidates : List Candidate
  name : Option String
  reading : Reading
  outcome : Option Outcome

inductive Event where
  | start (candidates : List Candidate) (name : Option String)
  | finishRead (run entry : Nat)
  | conclude (run : Nat)
  | reset

end Session

structure Session where
  extract : Extractor
  readLimit : Nat
  status : Session.Status := .idle
  progress : Nat := 0
  error : Option String := none
  analysis : Option Analysis := none
  generation : Nat := 0
  runs : List Session.Run := []

namespace Session

def snapshot (s : Session) : Snapshot := ⟨s.status, s.progress, s.error, s.analysis.isSome⟩

def isCurrent (s : Session) (generation : Nat) : Bool := s.generation == generation

abbrev Heard := Session × List Snapshot

def announce (s : Session) (status : Status) (progress : Option Nat) : Heard :=
  let s := { s with status, progress := progress.getD s.progress }
  (s, [s.snapshot])

def announceFor (s : Session) (generation : Nat) (status : Status) (progress : Option Nat) :
    Heard :=
  if s.isCurrent generation then s.announce status progress else (s, [])

def failFor (s : Session) (generation : Nat) (message : String) : Heard :=
  if s.isCurrent generation then { s with error := some message }.announce .error none else (s, [])

def modifyRun (s : Session) (run : Nat) (f : Run → Run) : Session :=
  { s with runs := s.runs.modify run f }

def newRun (s : Session) (candidates : List Candidate) (name : Option String) : Run where
  generation := s.generation + 1
  candidates := candidates
  name := name
  reading := .start candidates s.readLimit
  outcome := none

def startRun (s : Session) (candidates : List Candidate) (name : Option String) : Heard :=
  { s with
    generation := s.generation + 1
    error := none
    runs := s.runs ++ [s.newRun candidates name] }.announce .uploading (some 0)

def finishRead (s : Session) (run entry : Nat) : Heard :=
  match s.runs[run]? with
  | none => (s, [])
  | some r =>
    match r.reading.finish entry with
    | none => (s, [])
    | some reading =>
      (s.modifyRun run fun r => { r with reading }).announceFor r.generation .uploading
        (some reading.progress)

/-- A run ends with a fault. One of the analysis itself is told and goes no further. -/
def raiseFor (s : Session) (generation : Nat) (fault : Fault) : Heard × Outcome :=
  if fault.kind = .analysis then (s.failFor generation fault.text, .nothing)
  else (s.failFor generation fault.summary, .raised fault)

/-- A run whose candidates are read and analysed ends; only the newest one is kept. -/
def settleFor (s : Session) (generation : Nat) : Except Fault Analysis → Heard × Outcome
  | .error fault => s.raiseFor generation fault
  | .ok analysis =>
    if s.isCurrent generation then
      ({ s with analysis := some analysis }.announce .success (some 100), .produced analysis)
    else ((s, []), .nothing)

def analyzeRun (s : Session) (r : Run) (entries : List Entry) : Heard × Outcome :=
  let analysis := Analysis.ofEntries (Project.nameOf r.name r.candidates) entries s.extract
  let (s, heard) := s.announceFor r.generation .analyzing none
  let ((s, more), outcome) := s.settleFor r.generation analysis
  ((s, heard ++ more), outcome)

def endRun (s : Session) (r : Run) : Except EntryError (List Entry) → Heard × Outcome
  | .error (.unread failure) => (s.failFor r.generation failure.message, .nothing)
  | .error (.unfit fault) => s.raiseFor r.generation fault
  | .ok entries => s.analyzeRun r entries

def concludeRun (s : Session) (run : Nat) : Heard :=
  match s.runs[run]? with
  | none => (s, [])
  | some r =>
    match r.outcome, r.reading.result? with
    | none, some result =>
      let ((s, heard), outcome) := s.endRun r result
      (s.modifyRun run fun r => { r with outcome := some outcome }, heard)
    | _, _ => (s, [])

/-- Back to the beginning, with the analysis kept. Nobody is told. -/
def reset (s : Session) : Session :=
  { s with generation := s.generation + 1, status := .idle, progress := 0, error := none }

def step (s : Session) : Event → Heard
  | .start candidates name => s.startRun candidates name
  | .finishRead run entry => s.finishRead run entry
  | .conclude run => s.concludeRun run
  | .reset => (s.reset, [])

/-- The session after a list of events, and everything heard. -/
def trace (s : Session) : List Event → Heard
  | [] => (s, [])
  | event :: events =>
    let (s, heard) := s.step event
    let (s, more) := trace s events
    (s, heard ++ more)

def outcome? (s : Session) (run : Nat) : Option Outcome := (s.runs[run]?).bind Run.outcome

def readyReads (run : Nat) (ready : Nat → Bool) : Nat → Reading → List Event
  | 0, _ => []
  | count + 1, reading =>
    match reading.nextReady? ready with
    | none => []
    | some i =>
      match reading.finish i with
      | none => []
      | some reading => .finishRead run i :: readyReads run ready count reading

def eventsFor (s : Session) (run : Nat) (ready : Nat → Bool) : List Event :=
  match s.runs[run]? with
  | none => []
  | some r => readyReads run ready r.reading.selected.length r.reading ++ [.conclude run]

end Session

end CodeAtlas
