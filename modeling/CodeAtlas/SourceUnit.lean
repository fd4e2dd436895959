import CodeAtlas.Complexity
import CodeAtlas.Entry
import CodeAtlas.Language
import CodeAtlas.Linkage
import CodeAtlas.Role
import CodeAtlas.Table

/-!
The code files of a project with their roles, their measures and their neighbours. A file is a
dependent of another if one of its dependencies mentions the other's base name.
-/
namespace CodeAtlas

structure SourceUnit where
  id : String
  name : String
  role : Role := .utility
  path : String
  dependencies : List String := []
  dependents : List String := []
  size : Int := 0
  complexity : Int := 0
deriving DecidableEq, Repr

namespace SourceUnit

/-- The paths, other than the given one, whose dependencies mention its base name. Files of one name
in different folders are not told apart. -/
def dependentsOf (path : String) (records : Table Linkage) : List String :=
  let key := Path.baseName path
  if key = "" then [] else
    (records.entries.filter fun record =>
      record.1 != path && record.2.dependencies.any (Text.contains key)).map Prod.fst

def ofEntry (records : Table Linkage) (e : Entry) : SourceUnit :=
  let content := e.content.getD ""
  { id := e.path
    name := Path.fileName e.path
    role := Role.ofFile e.path content
    path := e.path
    dependencies := ((records.get? e.path).map Linkage.dependencies).getD []
    dependents := dependentsOf e.path records
    size := e.size
    complexity := Complexity.ofContent content }

def isUnit (e : Entry) : Bool := e.isFile && Language.isCode e.path

/-- One unit for each code file, in order. -/
def ofEntries (entries : List Entry) (records : Table Linkage) : List SourceUnit :=
  (entries.filter isUnit).map (ofEntry records)

end SourceUnit

end CodeAtlas
