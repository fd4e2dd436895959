import CodeAtlas.Entry
import CodeAtlas.Language
import CodeAtlas.Linkage
import CodeAtlas.Role
import CodeAtlas.Table

/-!
Totals and counts over the files of a project. Directories count for nothing; a file without content
has no lines and no language, but it has a role.
-/
namespace CodeAtlas

structure Statistics where
  totalFiles : Int := 0
  totalLines : Int := 0
  totalSize : Int := 0
  fileTypes : Histogram := ∅
  languages : Histogram := ∅
  roles : Histogram := ∅
  dependencies : Int := 0
  components : Int := 0
  services : Int := 0
  pages : Int := 0

namespace Statistics

def countFile (s : Statistics) (e : Entry) : Statistics :=
  let extension := e.extension.getD ""
  { s with
    totalFiles := s.totalFiles + 1
    totalLines := s.totalLines + ((e.content.map fun text => (Text.lineCount text : Int)).getD 0)
    totalSize := s.totalSize + e.size
    fileTypes := s.fileTypes.bump extension
    languages := if e.content.isSome then s.languages.bump (Language.nameOf extension)
      else s.languages
    roles := s.roles.bump (Role.ofFile e.path (e.content.getD "")).name }

def dependencyCount (records : Table Linkage) : Int :=
  (records.values.flatMap Linkage.dependencies).length

def ofEntries (entries : List Entry) (records : Table Linkage) : Statistics :=
  let counted := (entries.filter Entry.isFile).foldl countFile {}
  { counted with
    dependencies := dependencyCount records
    components := counted.roles.getD Role.component.name 0
    services := counted.roles.getD Role.service.name 0
    pages := counted.roles.getD Role.page.name 0 }

def listed (pairs : List (String × Int)) : String :=
  Text.intercalate ", " (pairs.map fun pair => pair.1 ++ " (" ++ toString pair.2 ++ ")")

/-- Larger counts first, equal counts by key. -/
def countBefore (a b : String × Int) : Bool := a.2 > b.2 || (a.2 == b.2 && a.1 ≤ b.1)

def summary (name : String) (s : Statistics) : String :=
  let head := "Project " ++ name ++ ": " ++ toString s.totalFiles ++ " files, " ++
    toString s.totalLines ++ " lines, " ++ toString s.totalSize ++ " bytes"
  let languages := if s.languages.entries.isEmpty then [] else
    ["  Languages: " ++ listed (s.languages.entries.mergeSort countBefore)]
  let roles := if s.roles.entries.isEmpty then [] else
    ["  Roles: " ++ listed (s.roles.entries.mergeSort fun a b => a.1 ≤ b.1)]
  Text.intercalate "\n" (head :: languages ++ roles ++
    ["  Dependencies: " ++ toString s.dependencies])

end Statistics

end CodeAtlas
