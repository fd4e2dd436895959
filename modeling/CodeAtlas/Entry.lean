/-!
The entries of a project: files with what is known of them, and directories.
-/
namespace CodeAtlas

inductive EntryKind where
  | file | directory
deriving DecidableEq, Repr

namespace EntryKind

def name : EntryKind → String
  | file => "file"
  | directory => "directory"

def ofName? (text : String) : Option EntryKind := [file, directory].find? (·.name == text)

end EntryKind

structure Entry where
  path : String
  name : String
  kind : EntryKind := .file
  extension : Option String := none
  size : Int := 0
  content : Option String := none
  lastModified : Option String := none
deriving DecidableEq, Repr

def Entry.isFile (e : Entry) : Bool := e.kind = .file

def Entry.isDirectory (e : Entry) : Bool := e.kind = .directory

end CodeAtlas
