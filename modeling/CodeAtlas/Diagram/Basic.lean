import CodeAtlas.Diagram.Loops
import CodeAtlas.Diagram.Shape
import CodeAtlas.Edge
import CodeAtlas.Layout.Simulation
import CodeAtlas.Scene

/-!
An interactive diagram of source units: a layout under simulation, a view onto it, and the loops
that tick it. A change of the units or of the view mode begins the layout again; zooming and panning
touch the view alone.
-/
namespace CodeAtlas

open Layout

variable {α γ : Type} [Scalar α] [Generator γ]

/-- The measures that diagrams are made with. -/
structure DiagramOptions (α : Type) where
  width : Int
  height : Int
  distance : α
  charge : α
  radius : α
  tickLimit : Int

structure Diagram (α γ : Type) where
  width : Int
  height : Int
  physics : Physics α
  tickLimit : Int
  seed : γ
  mode : ViewMode
  source : List SourceUnit
  edges : List Edge
  simulation : Simulation α γ
  phase : Phase
  viewport : Viewport α
  loops : Loops

inductive DiagramError where
  | unknownNode (id : String)
  | unknownViewMode (text : String)
  | divisionByZero
  | canvasTooLarge

def DiagramError.message : DiagramError → String
  | unknownNode id => Text.quoted ("Unknown node: " ++ id)
  | unknownViewMode text => Text.quoted text ++ " is not a valid ViewMode"
  | divisionByZero => "float division by zero"
  | canvasTooLarge => "integer division result too large for a float"

namespace Diagram

def bodiesOf (units : List SourceUnit) : List (Body α) :=
  units.map fun _ => ⟨Scalar.zero, Scalar.zero, Scalar.zero, Scalar.zero, none, none⟩

def layoutOf (physics : Physics α) (seed : γ) (units : List SourceUnit) (edges : List Edge) :
    Simulation α γ :=
  Simulation.start (bodiesOf units) (edges.map fun e => (e.source, e.target)) physics seed

def rebuild (d : Diagram α γ) : Diagram α γ :=
  let edges := Edge.ofUnits d.source d.mode
  { d with edges, simulation := layoutOf d.physics d.seed d.source edges, phase := .idle }

def measure (own : Option Int) (fallback : Int) : Int :=
  match own with
  | some n => if n = 0 then fallback else n
  | none => fallback

/-- A diagram of the given size; the mean of its layout lies in the middle. -/
def create (options : DiagramOptions α) (units : List SourceUnit) (width height : Option Int)
    (mode : ViewMode) (seed : γ) : Except DiagramError (Diagram α γ) :=
  let width := measure width options.width
  let height := measure height options.height
  let cx : α := Scalar.ofRatio width 2
  let cy : α := Scalar.ofRatio height 2
  if Scalar.finite cx && Scalar.finite cy then
    let physics := ⟨options.distance, options.charge, options.radius, cx, cy⟩
    let edges := Edge.ofUnits units mode
    .ok { width, height, physics, seed, mode, edges, tickLimit := options.tickLimit, source := units
          simulation := layoutOf physics seed units edges, phase := .idle
          viewport := Viewport.initial, loops := {} }
  else .error .canvasTooLarge

def running (d : Diagram α γ) : Bool := d.loops.running

/-- The position of the last unit with an id. -/
def indexOf? (d : Diagram α γ) (id : String) : Option Nat :=
  ((d.source.zipIdx.filter (·.1.id == id)).getLast?).map Prod.snd

/-- One tick, unless the layout is at rest; without units it comes to rest at once. -/
def step (d : Diagram α γ) : Diagram α γ × Except DiagramError Phase :=
  if d.phase = .settled then (d, .ok .settled)
  else if d.source.isEmpty then ({ d with phase := .settled }, .ok .settled)
  else
    match d.simulation.tick with
    | (simulation, true) => ({ d with simulation, phase := .simulating }, .error .divisionByZero)
    | (simulation, false) =>
      let phase := if simulation.settled then .settled else .simulating
      ({ d with simulation, phase }, .ok phase)

def settle : Nat → Diagram α γ → Diagram α γ × Except DiagramError Phase
  | 0, d => (d, .ok d.phase)
  | limit + 1, d =>
    match d.step with
    | (d, .ok .settled) => (d, .ok .settled)
    | (d, .ok _) => settle limit d
    | (d, .error e) => (d, .error e)

/-- The number of steps to settle in: a limit of its own, or the one of the diagram. -/
def limitOf (d : Diagram α γ) (limit : Option Int) : Nat := (limit.getD d.tickLimit).toNat

def steps : Nat → Diagram α γ → Diagram α γ × Except DiagramError Phase
  | 0, d => (d, .ok d.phase)
  | count + 1, d =>
    match d.step with
    | (d, .ok _) => steps count d
    | (d, .error e) => (d, .error e)

/-- A loop wakes up and steps the diagram; it ends when the layout is at rest or cannot be
computed. A loop that has ended or was cancelled does nothing. -/
def wake (d : Diagram α γ) (loop : Nat) : Diagram α γ × Option DiagramError :=
  if d.loops.states[loop]?.any LoopState.live then
    let (d, result) := d.step
    let state := match result with
      | .ok .settled => LoopState.finished
      | .ok _ => .sleeping
      | .error _ => .finished
    let fault := match result with
      | .ok _ => none
      | .error e => some e
    ({ d with loops := { d.loops with states := d.loops.states.set loop state } }, fault)
  else (d, none)

/-- Every loop that has not run yet wakes up once. -/
def wakeFresh (d : Diagram α γ) : Diagram α γ :=
  d.loops.fresh.foldl (fun d loop => (d.wake loop).1) d

def wakeOut (loop : Nat) : Nat → Diagram α γ → Diagram α γ × Option DiagramError
  | 0, d => (d, none)
  | limit + 1, d =>
    match d.wake loop with
    | (d, some e) => (d, some e)
    | (d, none) =>
      if d.loops.states[loop]?.any LoopState.live then wakeOut loop limit d else (d, none)

def start (d : Diagram α γ) : Diagram α γ := { d with loops := d.loops.start }

def stop (d : Diagram α γ) : Diagram α γ := { d with loops := d.loops.stop }

def setUnits (d : Diagram α γ) (units : List SourceUnit) : Diagram α γ :=
  { d with source := units, loops := d.loops.restart }.rebuild

def setViewMode (d : Diagram α γ) (mode : ViewMode) : Diagram α γ :=
  if mode = d.mode then d else { d with mode, loops := d.loops.restart }.rebuild

/-- A view mode given by its name. A name that stands for none stops the loop. -/
def setViewModeNamed (d : Diagram α γ) (text : String) : Diagram α γ × Except DiagramError Unit :=
  match ViewMode.ofName? text with
  | some mode => (d.setViewMode mode, .ok ())
  | none => (d.stop, .error (.unknownViewMode text))

def close (d : Diagram α γ) : Diagram α γ :=
  { d with source := [], loops := d.loops.stop }.rebuild

def withUnit (d : Diagram α γ) (id : String) (f : Nat → Diagram α γ) :
    Diagram α γ × Except DiagramError Unit :=
  match d.indexOf? id with
  | some i => (f i, .ok ())
  | none => (d, .error (.unknownNode id))

def dragStart (d : Diagram α γ) (id : String) : Diagram α γ × Except DiagramError Unit :=
  d.withUnit id fun i =>
    let held := d.simulation.modify i fun b => { b with fx := some b.x, fy := some b.y }
    { d with simulation := held.reheat Cooling.warmTarget, phase := .simulating
             loops := d.loops.resume }

/-- Holds a unit at the layout point that is shown at a screen point. -/
def dragMove (d : Diagram α γ) (id : String) (sx sy : α) :
    Diagram α γ × Except DiagramError Unit :=
  d.withUnit id fun i =>
    let (x, y) := d.viewport.toLayout sx sy
    { d with simulation := d.simulation.modify i fun b => { b with fx := some x, fy := some y } }

def dragEnd (d : Diagram α γ) (id : String) : Diagram α γ × Except DiagramError Unit :=
  d.withUnit id fun i =>
    { d with simulation :=
        (d.simulation.modify i fun b => { b with fx := none, fy := none }).cool }

/-- Zooms about a screen point; what is missing of it is taken from the middle. -/
def zoom (d : Diagram α γ) (factor : α) (cx cy : Option α) : Diagram α γ :=
  { d with viewport := d.viewport.zoom factor (cx.getD d.physics.cx) (cy.getD d.physics.cy) }

def pan (d : Diagram α γ) (dx dy : α) : Diagram α γ := { d with viewport := d.viewport.pan dx dy }

def resetView (d : Diagram α γ) : Diagram α γ := { d with viewport := Viewport.initial }

def sceneNode (mode : ViewMode) (u : SourceUnit) (b : Body α) : SceneNode α :=
  let shape := Shape.ofUnit u.role
    (if u.complexity = 0 then Shape.fallbackComplexity else u.complexity)
  { id := u.id
    name := u.name
    role := u.role
    path := u.path
    x := b.x
    y := b.y
    shape := shape.outline.name
    width := Scalar.ofRatio shape.width 1
    height := Scalar.ofRatio shape.height 1
    color := u.role.color
    label := u.name
    roleLabel := Text.upper u.role.name
    pathLabel := if mode.showsNesting then some (Path.tail2 u.path) else none
    pinned := b.pinned }

def sceneLink? (d : Diagram α γ) (e : Edge) : Option (SceneLink α) := do
  let source ← d.source[e.source]?
  let target ← d.source[e.target]?
  let a ← d.simulation.bodies[e.source]?
  let b ← d.simulation.bodies[e.target]?
  return { source := source.id, target := target.id, kind := e.kind.name
           x1 := a.x, y1 := a.y, x2 := b.x, y2 := b.y }

def scene (d : Diagram α γ) : Scene α where
  width := d.width
  height := d.height
  viewMode := d.mode
  phase := d.phase
  alpha := d.simulation.cooling.alpha
  viewport := d.viewport
  nodes := List.zipWith (sceneNode d.mode) d.source d.simulation.bodies
  links := d.edges.filterMap d.sceneLink?

end Diagram

end CodeAtlas
