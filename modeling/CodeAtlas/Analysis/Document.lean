import CodeAtlas.Analysis
import CodeAtlas.Json

/-!
An analysis as a JSON document. Members without a value are left out.
-/
namespace CodeAtlas

open Json

def textList (texts : List String) : Json := .list (texts.map .text)

def optionalText (key : String) (value : Option String) : List (String × Json) :=
  match value with
  | some v => [(key, .text v)]
  | none => []

def Histogram.toJson (h : Histogram) : Json :=
  .record (h.entries.map fun entry => (entry.1, .int entry.2))

def Linkage.toJson (l : Linkage) : Json :=
  .record [("imports", textList l.imports), ("exports", textList l.exports),
    ("dependencies", textList l.dependencies)]

def SourceUnit.toJson (u : SourceUnit) : Json :=
  .record [("id", .text u.id), ("name", .text u.name), ("role", .text u.role.name),
    ("path", .text u.path), ("dependencies", textList u.dependencies),
    ("dependents", textList u.dependents), ("size", .int u.size),
    ("complexity", .int u.complexity)]

def Statistics.toJson (s : Statistics) : Json :=
  .record [("total_files", .int s.totalFiles), ("total_lines", .int s.totalLines),
    ("total_size", .int s.totalSize), ("file_types", s.fileTypes.toJson),
    ("languages", s.languages.toJson), ("roles", s.roles.toJson),
    ("dependencies", .int s.dependencies), ("components", .int s.components),
    ("services", .int s.services), ("pages", .int s.pages)]

mutual

def Tree.toJson : Tree → Json
  | .node e children =>
    .record ([("path", .text e.path), ("name", .text e.name), ("kind", .text e.kind.name)] ++
      optionalText "extension" e.extension ++ [("size", .int e.size)] ++
      optionalText "content" e.content ++ [("children", .list (forestJson children))] ++
      optionalText "last_modified" e.lastModified)

def forestJson : Forest → List Json
  | [] => []
  | t :: ts => t.toJson :: forestJson ts

end

mutual

def Tree.height : Tree → Nat
  | .node _ children => forestHeight children + 1

def forestHeight : Forest → Nat
  | [] => 0
  | t :: ts => max t.height (forestHeight ts)

end

def Analysis.toJson (a : Analysis) : Json :=
  .record [("name", .text a.name), ("root_path", .text "/"), ("files", .list (forestJson a.files)),
    ("dependencies", .record (a.dependencies.entries.map fun e => (e.1, e.2.toJson))),
    ("architecture", .list (a.architecture.map SourceUnit.toJson)),
    ("statistics", a.statistics.toJson)]

def Analysis.levelLimit : Nat := 254

def Analysis.document? (a : Analysis) : Option String :=
  if forestHeight a.files ≤ levelLimit then some a.toJson.indented else none

end CodeAtlas
