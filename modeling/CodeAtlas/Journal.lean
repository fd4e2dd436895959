import CodeAtlas.Disk.Edit
import CodeAtlas.Table

/-!
Journals: what they write, from which level on, and where to. A journal gets its outlets once, at
the first setup; later setups change its level alone.
-/
namespace CodeAtlas

namespace Journal

def levels : List (String × Int) := [
  ("CRITICAL", 50), ("FATAL", 50), ("ERROR", 40), ("WARN", 30), ("WARNING", 30), ("INFO", 20),
  ("DEBUG", 10), ("NOTSET", 0)]

inductive Level where
  | number (n : Int)
  | named (name : String)

inductive Outlet where
  | console
  | file
deriving DecidableEq, Repr

def Outlet.name : Outlet → String
  | console => "StreamHandler"
  | file => "FileHandler"

end Journal

structure Journal where
  level : Int := 0
  outlets : List Journal.Outlet := []
deriving DecidableEq, Repr

inductive JournalError where
  | unknownLevel (name : String)
  | directory (error : DiskError)

def JournalError.message : JournalError → String
  | unknownLevel name => "Unknown level: " ++ Text.quoted name
  | directory e => e.message

namespace Journal

def Level.value? : Level → Except JournalError Int
  | number n => .ok n
  | named name => ((levels.lookup name).map .ok).getD (.error (.unknownLevel name))

/-- Sets a journal up: the level first, then the console, then a file in a directory, which is made
if it is missing. What was done before an error stays. -/
def setup {δ : Type} (j : Journal) (level : Level) (console : Bool) (directory : Option String)
    (disk : δ) (makeDirectory : δ → String → Except DiskError δ) :
    Journal × δ × Except JournalError Unit :=
  match level.value? with
  | .error e => (j, disk, .error e)
  | .ok n =>
    let j := { j with level := n }
    if !j.outlets.isEmpty then (j, disk, .ok ()) else
    let j := if console then { j with outlets := j.outlets ++ [.console] } else j
    match directory.filter (· != "") with
    | none => (j, disk, .ok ())
    | some path =>
      match makeDirectory disk path with
      | .error e => (j, disk, .error (.directory e))
      | .ok disk => ({ j with outlets := j.outlets ++ [.file] }, disk, .ok ())

/-- A journal's directory on a disk, with the file that is written there. The directory is made
along the links of its path, the file is looked for by the path as text. -/
def openDirectory (fileName : String) (d : Disk) (path : String) : Except DiskError Disk :=
  let (fromRoot, names) := Disk.namesOf path
  match d.makeDirectories fromRoot names.reverse with
  | .error e => .error e
  | .ok d => d.overwrite true (d.placeOf path ++ [fileName]) []

end Journal

structure JournalLine where
  journal : String
  level : String
  message : String

namespace JournalLine

def render (time : String) (l : JournalLine) : String :=
  time ++ " - " ++ l.journal ++ " - " ++ l.level ++ " - " ++ l.message ++ "\n"

def reaches (level : Int) (l : JournalLine) : Bool :=
  level ≤ (Journal.levels.lookup l.level).getD 0

end JournalLine

end CodeAtlas
