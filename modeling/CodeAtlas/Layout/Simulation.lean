import CodeAtlas.Layout.Cooling
import CodeAtlas.Layout.Force
import CodeAtlas.Layout.Spring

/-!
The simulation of a layout. A tick lowers the temperature, lets the springs and the forces act on
the speeds, and then moves every body by its speed; bodies that are held do not move.
-/
namespace CodeAtlas.Layout

variable {α γ : Type} [Scalar α] [Generator γ]

/-- How far springs keep their ends apart, how strongly bodies attract each other (negative:
repel), how large they are, and where their mean is held. -/
structure Physics (α : Type) where
  distance : α
  charge : α
  radius : α
  cx : α
  cy : α

structure Simulation (α γ : Type) where
  bodies : List (Body α)
  springs : List (Spring α)
  physics : Physics α
  cooling : Cooling α
  ticks : Nat
  generator : γ

def drag : α := Scalar.ofRatio 6 10

/-- A body at the start: where it is held, else where it is; at the origin, on a spiral. -/
def Body.place (i : Nat) (b : Body α) : Body α :=
  let x := b.fx.getD b.x
  let y := b.fy.getD b.y
  if Scalar.same x Scalar.zero && Scalar.same y Scalar.zero then
    let radius := Scalar.ofNat 10 * Scalar.sqrt (Scalar.half + Scalar.ofNat i)
    let angle := Scalar.ofNat i * Scalar.ofRatio 2399963229728653 1000000000000000
    { b with x := radius * Scalar.cos angle, y := radius * Scalar.sin angle, vx := Scalar.zero
             vy := Scalar.zero }
  else { b with x, y, vx := Scalar.zero, vy := Scalar.zero }

/-- The move of a body by its speed; a coordinate that is held stays where it is held. -/
def Body.move (keep : α) (b : Body α) : Body α :=
  let (x, vx) := match b.fx with
    | none => (b.x + b.vx * keep, b.vx * keep)
    | some fx => (fx, Scalar.zero)
  let (y, vy) := match b.fy with
    | none => (b.y + b.vy * keep, b.vy * keep)
    | some fy => (fy, Scalar.zero)
  { b with x, y, vx, vy }

namespace Simulation

def start (bodies : List (Body α)) (links : List (Nat × Nat)) (physics : Physics α) (generator : γ) :
    Simulation α γ where
  bodies := bodies.mapIdx Body.place
  springs := Spring.ofLinks links
  physics := physics
  cooling := Cooling.initial
  ticks := 0
  generator := generator

def settled (s : Simulation α γ) : Bool := s.cooling.settled

def reheat (s : Simulation α γ) (target : α) : Simulation α γ :=
  { s with cooling := s.cooling.reheat target }

def cool (s : Simulation α γ) : Simulation α γ := { s with cooling := s.cooling.cool }

def modify (s : Simulation α γ) (i : Nat) (f : Body α → Body α) : Simulation α γ :=
  { s with bodies := s.bodies.modify i f }

def forces (s : Simulation α γ) (alpha : α) : Swept (List (Body α)) γ :=
  let pulled := Spring.actAll alpha s.physics.distance s.springs s.bodies s.generator
  if pulled.stalled then pulled else
  let repelled := repel (s.physics.charge * alpha) pulled.value pulled.generator
  if repelled.stalled then repelled else
  collide s.physics.radius (recentre s.physics.cx s.physics.cy repelled.value) repelled.generator

/-- One tick, and whether a division by zero ended it halfway. -/
def tick (s : Simulation α γ) : Simulation α γ × Bool :=
  let cooling := s.cooling.tick
  let swept := s.forces cooling.alpha
  if swept.stalled then
    ({ s with cooling, bodies := swept.value, generator := swept.generator }, true)
  else
    let keep : α := drag
    ({ s with cooling, bodies := swept.value.map (Body.move keep), generator := swept.generator
              ticks := s.ticks + 1 }, false)

def ticksFor (s : Simulation α γ) : Nat → Simulation α γ × Bool
  | 0 => (s, false)
  | count + 1 =>
    match s.tick with
    | (s, true) => (s, true)
    | (s, false) => ticksFor s count

/-- Ticks until the layout has settled, `limit` times at most: the simulation, the number of ticks,
and whether the last one was ended by a division by zero. -/
def run (s : Simulation α γ) : Nat → Simulation α γ × Nat × Bool
  | 0 => (s, 0, false)
  | limit + 1 =>
    if s.settled then (s, 0, false) else
    match s.tick with
    | (s, true) => (s, 0, true)
    | (s, false) =>
      let (s, taken, stalled) := run s limit
      (s, taken + 1, stalled)

end Simulation

end CodeAtlas.Layout
