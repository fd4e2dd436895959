import CodeAtlas.Text.Quoted

/-!
What goes wrong outside the library: in reading an entry, in what is said about it, or in an
extractor that a caller supplies.
-/
namespace CodeAtlas

inductive FaultKind where
  | system | value | runtime | key | missingFile | permission
  /-- A value that is not of the kind it has to be. -/
  | invalid
  /-- A failure of the analysis itself, which an extractor may report as well. -/
  | analysis
  | other (className : { text : String // text ≠ "" })
deriving DecidableEq, Repr

namespace FaultKind

/-- The word a kind of fault is reported by when it carries no text. -/
def name : FaultKind → String
  | system => "OSError"
  | value => "ValueError"
  | runtime => "RuntimeError"
  | key => "KeyError"
  | missingFile => "FileNotFoundError"
  | permission => "PermissionError"
  | invalid => "ValidationError"
  | analysis => "ArchmapError"
  | other className => className

def reported : List FaultKind := [system, value, runtime, key, missingFile, permission, analysis]

def ofName? (text : String) : Option FaultKind := reported.find? (·.name == text)

end FaultKind

structure Fault where
  kind : FaultKind
  message : Option String
deriving DecidableEq, Repr

/-- The text of a fault; a missing key is shown between quotes. -/
def Fault.text (f : Fault) : String :=
  match f.message with
  | none => ""
  | some m => if f.kind = .key then Text.quoted m else m

/-- The text of a fault, or the word for its kind where the text is empty. -/
def Fault.summary (f : Fault) : String := if f.text = "" then f.kind.name else f.text

end CodeAtlas
