import CodeAtlas.SourceUnit
import CodeAtlas.Text.Quoted
import CodeAtlas.ViewMode

/-!
The edges between source units. A nesting edge leads from the unit at a unit's parent path to that
unit; a dependency edge leads from a unit to every other unit that one of its dependencies fits.
Ends are positions in the list of units.
-/
namespace CodeAtlas

inductive EdgeKind where
  | nesting | dependency
deriving DecidableEq, Repr

def EdgeKind.name : EdgeKind → String
  | nesting => "structure"
  | dependency => "dependency"

structure Edge where
  source : Nat
  target : Nat
  kind : EdgeKind
deriving DecidableEq, Repr

namespace SourceUnit

def parentPath? (u : SourceUnit) : Option String := (Path.parent? u.path).filter (· != "")

def childIds (units : List SourceUnit) (u : SourceUnit) : List String :=
  (units.filter fun other => (u.path.toList ++ ['/']).isPrefixOf other.path.toList).map (·.id)

/-- Whether a dependency fits a unit: it is the name, or part of the path, or has the name as a
part. -/
def fits (dependency : String) (u : SourceUnit) : Bool :=
  u.name == dependency || Text.contains dependency u.path ||
    (u.name != "" && Text.contains u.name dependency)

end SourceUnit

namespace Edge

open SourceUnit

/-- Of several units with one path the first is the parent. -/
def nestingEdges (units : List SourceUnit) : List Edge :=
  units.zipIdx.filterMap fun (u, n) => do
    let parent ← u.parentPath?
    let source ← units.findIdx? (·.path == parent)
    return ⟨source, n, .nesting⟩

/-- The units that one dependency adds to those already found; an id is found once. -/
def addTargets (units : List SourceUnit) (source : Nat) (dependency : String)
    (found : List (SourceUnit × Nat)) : List (SourceUnit × Nat) :=
  units.zipIdx.foldl (fun found candidate =>
    if candidate.2 != source && !found.any (·.1.id == candidate.1.id) &&
      fits dependency candidate.1 then found ++ [candidate] else found) found

/-- The units that the dependencies of a unit fit: those of its first dependency, then those that
the second one adds, and so on. -/
def targetsOf (units : List SourceUnit) (source : Nat) (dependencies : List String) :
    List (SourceUnit × Nat) :=
  dependencies.foldl (fun found dependency => addTargets units source dependency found) []

def dependencyEdges (units : List SourceUnit) : List Edge :=
  units.zipIdx.flatMap fun (u, n) =>
    (targetsOf units n u.dependencies).map fun target => ⟨n, target.2, .dependency⟩

def ofUnits (units : List SourceUnit) (mode : ViewMode) : List Edge :=
  (if mode.showsNesting then nestingEdges units else []) ++
    (if mode.showsDependencies then dependencyEdges units else [])

def describe (source target : String) (kind : EdgeKind) : String :=
  "GraphLink(" ++ Text.quoted source ++ " -> " ++ Text.quoted target ++ ", " ++ kind.name ++ ")"

end Edge

end CodeAtlas
