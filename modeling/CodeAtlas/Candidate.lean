import CodeAtlas.Entry
import CodeAtlas.Fault
import CodeAtlas.Language

/-!
Entries offered for analysis. What reading one would give is part of it, so that reading is a matter
of time alone. Once a file is read its size is looked at, which may turn out to be none.
-/
namespace CodeAtlas

structure Candidate where
  path : String
  size : Except Fault Int
  isDirectory : Bool
  lastModified : Option String := none
  text : Except Fault String

namespace Candidate

def isSelected (c : Candidate) : Bool := c.isDirectory || Language.isAnalyzable c.path

def toEntry (c : Candidate) (size : Int) (content : Option String) : Entry where
  path := c.path
  name := Path.fileName c.path
  kind := if c.isDirectory then .directory else .file
  extension := some (Path.extension c.path)
  size := size
  content := content
  lastModified := c.lastModified

def untitled : String := "Untitled Project"

/-- The name of a project: the first segment of its first candidate, if that has several or is a
directory. -/
def projectName : List Candidate → String
  | [] => untitled
  | first :: _ =>
    match Path.segments first.path with
    | top :: _ :: _ => top
    | _ => if first.isDirectory then first.path else untitled

end Candidate

end CodeAtlas
