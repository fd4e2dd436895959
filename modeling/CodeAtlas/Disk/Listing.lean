import CodeAtlas.Candidate
import CodeAtlas.Disk.Canonical
import CodeAtlas.Text.Utf8

/-!
Listing a directory with everything below it. Each directory is listed before its subdirectories are
entered: first its subdirectories, then its other entries, both sorted. A link to a directory is
listed and not entered; links that lead nowhere are left out.
-/
namespace CodeAtlas.Disk

def namesIn (d : Disk) (ignored : List String) (place : Place) (children : List DiskNode) :
    List String × List String :=
  let names := (children.map DiskNode.name).mergeSort
  let folders := names.filter fun name => d.isDirectory (place ++ [name])
  (folders.filter fun name => !ignored.contains name,
    names.filter fun name => !d.isDirectory (place ++ [name]))

def nested (d : Disk) (ignored : List String) (place : Place) :
    List DiskNode → List (String × List Place)
  | [] => []
  | .directory name children :: rest =>
    let inside := nested d ignored (place ++ [name]) children
    let (folders, others) := namesIn d ignored (place ++ [name]) children
    (name, (folders ++ others).map (place ++ [name, ·]) ++
      folders.flatMap fun folder => (inside.lookup folder).getD []) :: nested d ignored place rest
  | _ :: rest => nested d ignored place rest

def placesBelow (d : Disk) (ignored : List String) (place : Place) : DiskNode → List Place
  | .directory _ children =>
    let inside := nested d ignored place children
    let (folders, others) := namesIn d ignored place children
    (folders ++ others).map (place ++ [·]) ++
      folders.flatMap fun folder => (inside.lookup folder).getD []
  | _ => []

def textOf (place : Place) : DiskNode → Except Fault String
  | .file _ bytes => .ok (String.ofList (Text.unifyNewlines (Text.decodeFrom none bytes)))
  | .directory .. => .ok ""
  | _ => .error ⟨.system, some (DiskError.mk .cannotOpen (absolute place)).message⟩

def sizeOf : DiskNode → Int
  | .file _ bytes => bytes.length
  | _ => 0

def candidate (d : Disk) (base : Nat) (place : Place) (node : DiskNode) : Candidate where
  path := Text.intercalate "/" (place.drop base)
  size := .ok (sizeOf node)
  isDirectory := node.isDirectory
  lastModified := d.stamp
  text := textOf place node

inductive ListingError where
  | unusable (error : DiskError)
  | linkCircle (path : String)

def ListingError.message : ListingError → String
  | unusable e => e.message
  | linkCircle path => "Symlink loop from " ++ Text.quoted path

/-- A listing: its candidates, the paths that lead nowhere, and the error that ended it, if any. -/
structure Listing where
  candidates : List Candidate
  skipped : List String
  error : Option ListingError

def candidatesOf (d : Disk) (base : Nat) : List Place → Listing
  | [] => ⟨[], [], none⟩
  | place :: rest =>
    match d.stat place with
    | .ok node =>
      let more := candidatesOf d base rest
      { more with candidates := d.candidate base place node :: more.candidates }
    | .error .missing =>
      let more := candidatesOf d base rest
      { more with skipped := absolute place :: more.skipped }
    | .error problem => ⟨[], [], some (.unusable ⟨problem, absolute place⟩)⟩

/-- Lists a directory, itself first. Paths begin with its name. -/
def list (d : Disk) (ignored : List String) (path : String) : Listing :=
  let root := d.canonical path
  let shown := d.canonicalPath path
  let base := root.length - 1
  let failed (error : ListingError) : Listing := ⟨[], [], some error⟩
  if path.toList.contains '\x00' then failed (.unusable ⟨.nullByte, path⟩) else
  match d.stat root with
  | .ok node =>
    let more := d.candidatesOf base (d.placesBelow ignored root node)
    { more with candidates := d.candidate base root node :: more.candidates }
  | .error .tooManyLinks => failed (.linkCircle shown)
  | .error problem => failed (.unusable ⟨(flaw? shown).getD problem, shown⟩)

end CodeAtlas.Disk
