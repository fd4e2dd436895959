import CodeAtlas.Diagram.Basic
import CodeAtlas.Svg.Drawing

/-!
What can be done with a diagram, as one type of operations with one function that carries them out.
-/
namespace CodeAtlas

variable {α γ : Type} [Scalar α] [Generator γ]

namespace Diagram

inductive Operation (α : Type) where
  | step (count : Nat)
  | settle (limit : Option Int)
  | setUnits (units : List SourceUnit)
  | viewMode (mode : ViewMode)
  | viewModeNamed (text : String)
  | dragStart (id : String)
  | dragMove (id : String) (x y : α)
  | dragEnd (id : String)
  | zoom (factor : α) (cx cy : Option α)
  | pan (dx dy : α)
  | resetView
  | start
  | stop
  | close
  /-- Runs a new loop to its end; it wakes up `limit` times at most. -/
  | runLoop (limit : Nat)
  | wake (loop : Nat)

inductive Reply where
  | done
  | phase (phase : Phase)
  | view
  | started (anew : Bool)

def replying {β : Type} (result : Diagram α γ × Except DiagramError β) (reply : β → Reply) :
    Diagram α γ × Except DiagramError Reply := (result.1, result.2.map reply)

def apply (d : Diagram α γ) : Operation α → Diagram α γ × Except DiagramError Reply
  | .step count => replying (d.steps count) .phase
  | .settle limit => replying (d.settle (d.limitOf limit)) .phase
  | .setUnits units => (d.setUnits units, .ok .done)
  | .viewMode mode => (d.setViewMode mode, .ok .done)
  | .viewModeNamed text => replying (d.setViewModeNamed text) fun _ => .done
  | .dragStart id => replying (d.dragStart id) fun _ => .done
  | .dragMove id x y => replying (d.dragMove id x y) fun _ => .done
  | .dragEnd id => replying (d.dragEnd id) fun _ => .done
  | .zoom factor cx cy => (d.zoom factor cx cy, .ok .view)
  | .pan dx dy => (d.pan dx dy, .ok .view)
  | .resetView => (d.resetView, .ok .view)
  | .start => (d.start, .ok (.started !d.running))
  | .stop => (d.stop, .ok .done)
  | .close => (d.close, .ok .done)
  | .runLoop limit =>
    let d := d.stop.start
    match (d.loops.current.map fun loop => wakeOut loop limit d).getD (d, none) with
    | (d, none) => (d, .ok (.phase d.phase))
    | (d, some e) => (d, .error e)
  | .wake loop =>
    match d.wake loop with
    | (d, none) => (d, .ok .done)
    | (d, some e) => (d, .error e)

def run (d : Diagram α γ) (operations : List (Operation α)) : Diagram α γ :=
  operations.foldl (fun d operation => (d.apply operation).1) d

end Diagram

end CodeAtlas
