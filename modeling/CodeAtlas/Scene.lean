import CodeAtlas.Diagram.Viewport
import CodeAtlas.Role
import CodeAtlas.ViewMode

/-!
A diagram at one moment, ready to be drawn: nodes with places, shapes and labels, and lines between
them.
-/
namespace CodeAtlas

/-- Where a layout stands: not begun, moving, or at rest. -/
inductive Phase where
  | idle | simulating | settled
deriving DecidableEq, Repr

namespace Phase

def name : Phase → String
  | idle => "idle"
  | simulating => "simulating"
  | settled => "settled"

def ofName? (text : String) : Option Phase := [idle, simulating, settled].find? (·.name == text)

end Phase

/-- A node of a scene. The shape is named; a name that stands for no shape is drawn as a circle. -/
structure SceneNode (α : Type) where
  id : String
  name : String
  role : Role
  path : String
  x : α
  y : α
  shape : String
  width : α
  height : α
  color : String
  label : String
  roleLabel : String
  pathLabel : Option String
  pinned : Bool

structure SceneLink (α : Type) where
  source : String
  target : String
  kind : String
  x1 : α
  y1 : α
  x2 : α
  y2 : α

structure Scene (α : Type) where
  width : Int
  height : Int
  viewMode : ViewMode
  phase : Phase
  alpha : α
  viewport : Viewport α
  nodes : List (SceneNode α)
  links : List (SceneLink α)

end CodeAtlas
