/-!
Which edges a diagram shows.
-/
namespace CodeAtlas

inductive ViewMode where
  | nesting | dependencies | both
deriving DecidableEq, Repr

namespace ViewMode

def all : List ViewMode := [nesting, dependencies, both]

def name : ViewMode → String
  | nesting => "structure"
  | dependencies => "dependencies"
  | both => "both"

def ofName? (text : String) : Option ViewMode := all.find? (·.name == text)

theorem ofName?_name (m : ViewMode) : ofName? m.name = some m := by cases m <;> rfl

def showsNesting (m : ViewMode) : Bool := m != dependencies

def showsDependencies (m : ViewMode) : Bool := m != nesting

end ViewMode

end CodeAtlas
