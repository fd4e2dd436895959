import CodeAtlas.Diagram.Operation
import CodeAtlas.Disk.Listing
import CodeAtlas.Forest.Selection
import CodeAtlas.Session
import CodeAtlas.Upload

/-!
The studio shows the analysis of a session as a diagram. Whenever a run succeeds, its source units
are put into the diagram and the diagram begins to move. What happens to a studio is again a list of
events.
-/
namespace CodeAtlas

variable {α γ : Type} [Scalar α] [Generator γ]

structure Studio (α γ : Type) where
  session : Session
  diagram : Diagram α γ

inductive Refusal where
  | noFiles
  | invalidRoot (path : String)
  | noAnalysis
  | badFactor
  | unknownNode (error : DiagramError)

namespace Refusal

def status : Refusal → Nat
  | noAnalysis => 404
  | unknownNode _ => 404
  | _ => 400

def message : Refusal → String
  | noFiles => "No files uploaded"
  | invalidRoot path => "Invalid root_path: " ++ path
  | noAnalysis => "No analysis yet. Upload a project first."
  | badFactor => "factor must be positive"
  | unknownNode e => e.message

end Refusal

namespace Studio

inductive Event (α : Type) where
  | session (event : Session.Event)
  /-- Another view mode is asked for; the diagram begins to move. -/
  | viewMode (mode : ViewMode)
  | diagram (operation : Diagram.Operation α)

def shown (s : Session) : List SourceUnit := (s.analysis.map Analysis.architecture).getD []

/-- A run ends; if it produced an analysis, the diagram shows it and moves. -/
def conclude (s : Studio α γ) (run : Nat) : Studio α γ × List Session.Snapshot :=
  let pending := (s.session.outcome? run).isNone
  let (session, heard) := s.session.concludeRun run
  match pending, session.outcome? run with
  | true, some (.produced analysis) =>
    (⟨session, (s.diagram.setUnits analysis.architecture).start⟩, heard)
  | _, _ => (⟨session, s.diagram⟩, heard)

def step (s : Studio α γ) : Event α → Studio α γ × List Session.Snapshot
  | .session (.conclude run) => s.conclude run
  | .session event =>
    let (session, heard) := s.session.step event
    (⟨session, s.diagram⟩, heard)
  | .viewMode mode => (⟨s.session, (s.diagram.setViewMode mode).start⟩, [])
  | .diagram operation => (⟨s.session, (s.diagram.apply operation).1⟩, [])

def trace (s : Studio α γ) (events : List (Event α)) : Studio α γ :=
  events.foldl (fun s event => (s.step event).1) s

def analyze (s : Studio α γ) (candidates : List Candidate) : Studio α γ :=
  let run := s.session.runs.length
  let s := (s.step (.session (.start candidates none))).1
  s.trace ((s.session.eventsFor run fun _ => true).map .session)

def upload (s : Studio α γ) (uploads : List Upload) : Except Refusal (Studio α γ) :=
  let candidates := Upload.candidates uploads
  if candidates.isEmpty then .error .noFiles else .ok (s.analyze candidates)

def rootOf (disk : Disk) (path : String) : Except Refusal String :=
  if disk.isDirectory (disk.placeOf path) then .ok (disk.rooted path)
  else .error (.invalidRoot (disk.rooted path))

def reset (s : Studio α γ) : Studio α γ := { s with session := s.session.reset }

def analysis (s : Studio α γ) : Except Refusal Analysis :=
  (s.session.analysis.map .ok).getD (.error .noAnalysis)

def files (s : Studio α γ) (query : Forest.Query) : Except Refusal Forest :=
  s.analysis.map fun a => Forest.select query a.files

def viewMode (s : Studio α γ) (mode : ViewMode) : Studio α γ := (s.step (.viewMode mode)).1

def onNode (s : Studio α γ) (operation : Diagram.Operation α) : Except Refusal (Studio α γ) :=
  match s.diagram.apply operation with
  | (diagram, .ok _) => .ok { s with diagram }
  | (_, .error e) => .error (.unknownNode e)

def zoom (s : Studio α γ) (factor : α) (cx cy : Option α) : Except Refusal (Studio α γ) :=
  if Scalar.atMost factor Scalar.zero then .error .badFactor
  else .ok { s with diagram := s.diagram.zoom factor cx cy }

end Studio

end CodeAtlas
