import CodeAtlas.Fault
import CodeAtlas.Forest
import CodeAtlas.Linkage
import CodeAtlas.SourceUnit
import CodeAtlas.Statistics

/-!
The analysis of a project: its file tree, the linkage of its code files, its source units and its
statistics.
-/
namespace CodeAtlas

/-- Finds the linkage of a file from its content and its path. -/
abbrev Extractor := String → String → Except Fault Linkage

def Extractor.lexical : Extractor := fun content _ => .ok (Linkage.ofContent content)

structure Analysis where
  name : String
  files : Forest
  dependencies : Table Linkage
  architecture : List SourceUnit
  statistics : Statistics

namespace Analysis

/-- Whether the linkage of an entry is recorded: only code files with some content have one. -/
def isRecorded (e : Entry) : Bool := SourceUnit.isUnit e && e.content.getD "" != ""

/-- The linkage of each recorded entry by path. The first extraction that fails ends the work. -/
def recordsFrom (extract : Extractor) (records : Table Linkage) :
    List Entry → Except Fault (Table Linkage)
  | [] => .ok records
  | e :: rest =>
    if isRecorded e then
      match extract (e.content.getD "") e.path with
      | .ok record => recordsFrom extract (records.insert e.path record) rest
      | .error fault => .error fault
    else recordsFrom extract records rest

def ofEntries (name : String) (entries : List Entry) (extract : Extractor) :
    Except Fault Analysis :=
  match recordsFrom extract ∅ entries with
  | .error fault => .error fault
  | .ok records => .ok
    { name
      files := Forest.ofEntries entries
      dependencies := records
      architecture := SourceUnit.ofEntries entries records
      statistics := Statistics.ofEntries entries records }

end Analysis

end CodeAtlas
