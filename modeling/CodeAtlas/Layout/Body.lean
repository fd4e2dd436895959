import CodeAtlas.Random.Twister
import CodeAtlas.Scalar

/-!
The bodies that a layout moves, and what a sweep over them leaves behind. A division by zero ends a
sweep; what had been done by then stays.
-/
namespace CodeAtlas.Layout

variable {α γ σ : Type}

/-- A body with its place and its speed, and the coordinates it is held at. -/
structure Body (α : Type) where
  x : α
  y : α
  vx : α
  vy : α
  fx : Option α := none
  fy : Option α := none

def Body.pinned (b : Body α) : Bool := b.fx.isSome

def Body.push [Scalar α] (b : Body α) (dx dy : α) : Body α :=
  { b with vx := b.vx + dx, vy := b.vy + dy }

def Body.pull [Scalar α] (b : Body α) (dx dy : α) : Body α :=
  { b with vx := b.vx - dx, vy := b.vy - dy }

structure Swept (σ γ : Type) where
  value : σ
  generator : γ
  stalled : Bool

/-- A random number close to zero. -/
def jiggle [Scalar α] [Generator γ] (generator : γ) : α × γ :=
  let (n, next) := Generator.draw generator
  ((Scalar.ofRatio n 0x20000000000000 - Scalar.half) * Scalar.ofRatio 1 1000000, next)

/-- A number, or a random one close to zero in the place of zero. -/
def orJiggle [Scalar α] [Generator γ] (x : α) (generator : γ) : α × γ :=
  if Scalar.same x Scalar.zero then jiggle generator else (x, generator)

end CodeAtlas.Layout
