import CodeAtlas.Disk.Listing
import CodeAtlas.Project
import CodeAtlas.Random.Twister
import CodeAtlas.Settings

/-!
Requests that stand alone: the analysis of a directory, and its diagram at rest.
-/
namespace CodeAtlas

inductive ServiceError where
  | badSize
  | invalidRoot (path : String)
  | listing (error : Disk.ListingError)
  | project (error : ProjectError)
  | diagram (error : DiagramError)

namespace ServiceError

def status? : ServiceError → Option Nat
  | badSize => some 400
  | invalidRoot _ => some 400
  | project (.read _) => some 500
  | _ => none

def message : ServiceError → String
  | badSize => "width and height must be positive"
  | invalidRoot path => "Invalid root_path: " ++ path
  | listing e => e.message
  | project e => e.message
  | diagram e => e.message

end ServiceError

namespace Service

def analyze (settings : Settings) (disk : Disk) (path : String) : Except ServiceError Analysis :=
  let root := disk.rooted path
  if !disk.isDirectory (disk.placeOf path) then .error (.invalidRoot root) else
  let listing := disk.list settings.ignoreDirs root
  match listing.error with
  | some e => .error (.listing e)
  | none =>
    (Project.analyze listing.candidates none .lexical settings.maxConcurrentReads).2.mapError
      .project

def layout (settings : Settings) (disk : Disk) (path : String) (mode : ViewMode)
    (width height : Int) : Except ServiceError (Scene Float) := do
  if width ≤ 0 || height ≤ 0 then throw .badSize
  let analysis ← analyze settings disk path
  let diagram ← (Diagram.create settings.diagramOptions analysis.architecture (some width)
    (some height) mode (Twister.ofSeed 0)).mapError .diagram
  let (diagram, result) := diagram.settle (diagram.limitOf none)
  let _ ← result.mapError .diagram
  return diagram.scene

end Service

end CodeAtlas
