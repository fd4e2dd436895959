import CodeAtlas.Scalar

/-!
The view onto a layout: a shift and a scale. Zooming keeps the layout point under a screen point
where it is; the scale stays within fixed bounds.
-/
namespace CodeAtlas

variable {α : Type} [Scalar α]

/-- A layout point `p` is shown at `k · p + (x, y)`. -/
structure Viewport (α : Type) where
  x : α
  y : α
  k : α

namespace Viewport

def initial : Viewport α := ⟨Scalar.zero, Scalar.zero, Scalar.one⟩

def minScale : α := Scalar.ofRatio 1 10

def maxScale : α := Scalar.ofNat 4

def toLayout (v : Viewport α) (sx sy : α) : α × α := ((sx - v.x) / v.k, (sy - v.y) / v.k)

def zoom (v : Viewport α) (factor cx cy : α) : Viewport α :=
  let k := Scalar.clamp (v.k * factor) minScale maxScale
  let (lx, ly) := v.toLayout cx cy
  ⟨cx - lx * k, cy - ly * k, k⟩

def pan (v : Viewport α) (dx dy : α) : Viewport α := { v with x := v.x + dx, y := v.y + dy }

end Viewport

end CodeAtlas
