import CodeAtlas.Disk.Canonical

/-!
Changes of a disk: making directories and writing files.
-/
namespace CodeAtlas.Disk

def putIn (leaf : String → DiskNode) : Place → List DiskNode → List DiskNode
  | [], nodes => nodes
  | [name], nodes => nodes.filter (·.name != name) ++ [leaf name]
  | name :: rest, nodes =>
    let inside := match find? nodes name with
      | some (.directory _ children) => children
      | _ => []
    nodes.filter (·.name != name) ++ [.directory name (putIn leaf rest inside)]

def put (d : Disk) (place : Place) (leaf : String → DiskNode) : Disk :=
  { d with top := putIn leaf place d.top }

def putFile (d : Disk) (path : String) (bytes : List UInt8) : Disk :=
  d.put (d.canonical path) fun name => .file name bytes

def putDirectory (d : Disk) (path : String) : Disk :=
  let place := d.canonical path
  if d.isDirectory place then d else d.put place fun name => .directory name []

def putPlain (d : Disk) (path : String) (leaf : String → DiskNode) : Disk :=
  let place := d.placeOf path
  d.put (d.canonical (absolute place.dropLast) ++ place.drop (place.length - 1)) leaf

/-- Names as a path again; without any name it is the directory it starts in. -/
def spell (fromRoot : Bool) (names : List String) : String :=
  if fromRoot then absolute names else if names.isEmpty then "." else Text.intercalate "/" names

/-- Makes one directory in a folder that has to be there. A directory that is there already will
do. -/
def makeDirectory (d : Disk) (folder : Place) (name : String) : Except DiskProblem Disk :=
  match d.stat (folder ++ [name]) with
  | .ok (.directory ..) => .ok d
  | .error .nameTooLong => .error .nameTooLong
  | _ =>
    match d.follow folder with
    | .error problem => .error problem
    | .ok real =>
      if !d.isDirectory real then .error .notDirectory
      else if (d.node? (real ++ [name])).isSome then .error .occupied
      else .ok (d.put (real ++ [name]) fun name => .directory name [])

def makeDirectories (d : Disk) (fromRoot : Bool) : List String → Except DiskError Disk
  | [] => .ok d
  | last :: above =>
    let start := if fromRoot then [] else d.here
    let path := spell fromRoot (above.reverse ++ [last])
    let failure (problem : DiskProblem) : DiskError := ⟨problem, path⟩
    match flaw? path with
    | some problem => .error (failure problem)
    | none =>
      match d.makeDirectory (start ++ above.reverse) last with
      | .error .missing =>
        match makeDirectories d fromRoot above with
        | .error e => .error e
        | .ok d => (d.makeDirectory (start ++ above.reverse) last).mapError failure
      | result => result.mapError failure

def overwrite (d : Disk) (fromRoot : Bool) (names : List String) (bytes : List UInt8) :
    Except DiskError Disk :=
  let path := spell fromRoot names
  match flaw? path with
  | some problem => .error ⟨problem, path⟩
  | none =>
    match d.walk true linkLimit [] ((if fromRoot then [] else d.here) ++ names) with
    | .error problem => .error ⟨problem, path⟩
    | .ok real =>
      match d.node? real with
      | some (.directory ..) => .error ⟨.isDirectory, path⟩
      | some (.blocked _) => .error ⟨.cannotOpen, path⟩
      | _ => .ok (d.put real fun name => .file name bytes)

def writeFile (d : Disk) (path : String) (bytes : List UInt8) : Except DiskError Disk :=
  let (fromRoot, names) := namesOf path
  match d.makeDirectories fromRoot names.dropLast.reverse with
  | .error e => .error e
  | .ok d => d.overwrite fromRoot names bytes

def bytesAt? (d : Disk) (path : String) : Option (List UInt8) :=
  let (fromRoot, names) := namesOf path
  match d.stat ((if fromRoot then [] else d.here) ++ names) with
  | .ok (.file _ bytes) => some bytes
  | _ => none

end CodeAtlas.Disk
