import CodeAtlas.Role

/-!
The shapes that source units are drawn with. A shape grows with the complexity of its unit, within
bounds that depend on the role.
-/
namespace CodeAtlas

inductive Outline where
  | rect | diamond | cylinder | circle
deriving DecidableEq, Repr

def Outline.name : Outline → String
  | rect => "rect"
  | diamond => "diamond"
  | cylinder => "cylinder"
  | circle => "circle"

structure Shape where
  outline : Outline
  width : Int
  height : Int
deriving DecidableEq, Repr

namespace Shape

def within (low high n : Int) : Int := max low (min high n)

def ofUnit (role : Role) (complexity : Int) : Shape :=
  match role with
  | .page => ⟨.rect, within 40 80 (complexity * 4), within 30 60 (complexity * 3)⟩
  | .service =>
    let size := within 20 40 complexity * 2
    ⟨.diamond, size, size⟩
  | .database => ⟨.cylinder, within 30 60 (complexity * 3), within 20 40 (complexity * 2)⟩
  | _ =>
    let size := within 20 40 complexity * 2
    ⟨.circle, size, size⟩

def fallbackComplexity : Int := 10

end Shape

def Role.color : Role → String
  | component => "#3b82f6"
  | service => "#10b981"
  | page => "#8b5cf6"
  | api => "#f59e0b"
  | database => "#ef4444"
  | utility => "#6b7280"
  | config => "#9ca3af"

end CodeAtlas
