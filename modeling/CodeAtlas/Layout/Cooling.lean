import CodeAtlas.Scalar

/-!
The temperature of a layout. It moves a fixed share of the way towards its target in every tick; a
layout whose temperature is below the floor has settled.
-/
namespace CodeAtlas.Layout

variable {α : Type} [Scalar α]

structure Cooling (α : Type) where
  alpha : α
  target : α
  floor : α
  decay : α

namespace Cooling

def initial : Cooling α where
  alpha := Scalar.one
  target := Scalar.zero
  floor := Scalar.ofRatio 1 1000
  decay := Scalar.ofRatio 2276277904418933 100000000000000000

def warmTarget : α := Scalar.ofRatio 3 10

def settled (c : Cooling α) : Bool := Scalar.less c.alpha c.floor

/-- A new target; a settled layout is lifted to the floor. -/
def reheat (c : Cooling α) (target : α) : Cooling α :=
  { c with target, alpha := if c.settled then c.floor else c.alpha }

def cool (c : Cooling α) : Cooling α := { c with target := Scalar.zero }

/-- The temperature one tick later. -/
def tick (c : Cooling α) : Cooling α :=
  { c with alpha := c.alpha + (c.target - c.alpha) * c.decay }

end Cooling

end CodeAtlas.Layout
